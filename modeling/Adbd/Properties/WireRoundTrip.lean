import Adbd.Model.Wire

/-!
# The wire format round trip

Three facts about what two transports put on the wire and what the reader makes of it.  A stream
of stamped packets, cut anywhere, is read back as the same packets; the TCP and the USB writer
emit the same bytes; and an accepted packet, sent again, gives back the bytes it was read from.

Both directions go through `wireBytes`, the bytes a complete write of a packet emits.  A writer that
reports success has emitted them, and each writer succeeds where the writes take everything: in
pieces of any size, with interruptions, and for `bulk_write` also with writes of nothing in between.
`usb_adb_write` calls `adb_write` once, so a piece is not enough for it.
-/

namespace Adbd.WireRoundTrip

open Syscall

/-- What the two ends agree on about a packet. -/
def view (p : Apacket) : UInt32 × UInt32 × UInt32 × List UInt8 :=
  (p.msg.command, p.msg.arg0, p.msg.arg1, p.payload)

/-- The payload lies within the packet's buffer, which has room for `MAX_PAYLOAD` bytes. -/
def Fits (p : Apacket) : Prop :=
  p.msg.dataLength.toNat ≤ maxPayload ∧ p.msg.dataLength.toNat ≤ p.data.length

/-- `send_packet` stamped `p` and some `remote_write` of it emitted all of `out`. -/
def Emits (p : Apacket) (out : List UInt8) : Prop :=
  ∃ ws ws', remoteWrite (stamp p) ws = (out, true, ws')

/-- Header and payload, as they lie in `struct apacket`. -/
def wireBytes (p : Apacket) : List UInt8 := messageBytes p.msg ++ p.payload

lemma length_payload {p : Apacket} (hp : Fits p) : p.payload.length = p.msg.dataLength.toNat := by
  rw [Apacket.payload, List.length_take]
  exact Nat.min_eq_left hp.2

/-! ## What a successful write has emitted -/

lemma remoteWrite_ok {p : Apacket} {ws ws' : List WriteResult} {out : List UInt8}
    (h : remoteWrite p ws = (out, true, ws')) : out = wireBytes p :=
  writeFull_ok h

lemma bulkWrite_ok {bs out : List UInt8} {ws ws' : List WriteResult}
    (h : bulkWrite bs ws = (out, true, ws')) : out = bs := by
  induction ws generalizing bs out with
  | nil => simp [bulkWrite] at h
  | cons r ws ih =>
    cases r with
    | wrote n =>
      rw [bulkWrite] at h
      by_cases hn : bs.drop n = []
      · rw [if_pos hn] at h
        cases h
        rfl
      · -- a short write: the loop goes on with what is left
        rw [if_neg hn] at h
        rcases hr : bulkWrite (bs.drop n) ws with ⟨o, ok, t⟩
        rw [hr] at h
        simp only [Prod.mk.injEq] at h
        obtain ⟨rfl, rfl, rfl⟩ := h
        rw [ih hr, List.take_append_drop]
    | intr =>
      rw [bulkWrite] at h
      exact ih h
    | again => simp [bulkWrite] at h
    | fail => simp [bulkWrite] at h

lemma writeOnce_ok {bs out : List UInt8} {ws ws' : List WriteResult}
    (h : writeOnce bs ws = (out, true, ws')) : out = bs := by
  induction ws with
  | nil => simp [writeOnce] at h
  | cons r ws ih =>
    cases r with
    | wrote n =>
      simp only [writeOnce, Prod.mk.injEq, decide_eq_true_eq] at h
      obtain ⟨rfl, hn, rfl⟩ := h
      exact List.take_of_length_le hn
    | intr =>
      rw [writeOnce] at h
      exact ih h
    | again => simp [writeOnce] at h
    | fail => simp [writeOnce] at h

lemma usbWrite_ok {k : UsbKind} {bs out : List UInt8} {ws ws' : List WriteResult}
    (h : usbWrite k bs ws = (out, true, ws')) : out = bs := by
  cases k with
  | ffs => exact bulkWrite_ok h
  | adb => exact writeOnce_ok h

lemma usbRemoteWrite_ok {k : UsbKind} {p : Apacket} {ws ws' : List WriteResult}
    {out : List UInt8} (h : usbRemoteWrite k p ws = (out, true, ws')) : out = wireBytes p := by
  rw [usbRemoteWrite] at h
  rcases hr : usbWrite k (messageBytes p.msg) ws with ⟨o, ok, t⟩
  rw [hr] at h
  cases ok with
  | false => simp at h
  | true =>
    have ho : o = messageBytes p.msg := usbWrite_ok hr
    by_cases h0 : p.msg.dataLength = 0
    · -- the special case skips a payload that is empty anyway
      simp only [h0, if_true, Prod.mk.injEq] at h
      have hnil : p.payload = [] := by simp [Apacket.payload, h0]
      rw [wireBytes, hnil, List.append_nil, ← h.1, ho]
    · simp only [h0, if_false] at h
      rcases hr' : usbWrite k p.payload t with ⟨o', ok', t'⟩
      rw [hr'] at h
      simp only [Prod.mk.injEq] at h
      obtain ⟨rfl, rfl, rfl⟩ := h
      rw [wireBytes, ho, usbWrite_ok hr']

/-! ## Writes that take everything -/

/-- Results of writes that are not refused. -/
def Willing (s : List WriteResult) : Prop := ∀ r ∈ s, r = .intr ∨ ∃ n, r = .wrote n

/-- The writes of a script take a buffer of `len` bytes from a gadget interface: in pieces, or at
once where the interface writes once. -/
def Takes : UsbKind → ℕ → List WriteResult → Prop
  | .ffs, len, s => Willing s ∧ len ≤ room s
  | .adb, len, s => ∃ intrs n, (∀ r ∈ intrs, r = .intr) ∧ len ≤ n ∧ s = intrs ++ [.wrote n]

lemma Willing.append {s t : List WriteResult} (hs : Willing s) (ht : Willing t) :
    Willing (s ++ t) := by
  intro r hr
  rcases List.mem_append.mp hr with hr | hr
  · exact hs r hr
  · exact ht r hr

/-- Induction over the script: a piece leaves a shorter buffer and as much less room. -/
lemma bulkWrite_takes {bs : List UInt8} {s : List WriteResult} (hbs : bs ≠ []) (hs : Willing s)
    (hroom : bs.length ≤ room s) (more : List WriteResult) :
    ∃ rest, bulkWrite bs (s ++ more) = (bs, true, rest ++ more) ∧ Willing rest := by
  induction s generalizing bs with
  | nil => exact absurd (List.length_eq_zero_iff.mp (Nat.le_zero.mp hroom)) hbs
  | cons r s ih =>
    have hs' : Willing s := fun r hr => hs r (List.mem_cons_of_mem _ hr)
    rcases hs r (List.mem_cons_self ..) with rfl | ⟨n, rfl⟩
    · obtain ⟨rest, hw, hrest⟩ := ih hbs hs' hroom
      exact ⟨rest, by rw [List.cons_append, bulkWrite, hw], hrest⟩
    · rw [List.cons_append, bulkWrite]
      by_cases hall : bs.drop n = []
      · exact ⟨s, if_pos hall, hs'⟩
      · rw [room] at hroom
        obtain ⟨rest, hw, hrest⟩ := ih hall hs' (by
          rw [List.length_drop]
          omega)
        refine ⟨rest, ?_, hrest⟩
        rw [if_neg hall, hw]
        simp only [List.take_append_drop]

lemma writeOnce_takes {bs : List UInt8} {intrs : List WriteResult} {n : ℕ}
    (hs : ∀ r ∈ intrs, r = .intr) (hn : bs.length ≤ n) (more : List WriteResult) :
    writeOnce bs (intrs ++ .wrote n :: more) = (bs, true, more) := by
  induction intrs with
  | nil => rw [List.nil_append, writeOnce, List.take_of_length_le hn, decide_eq_true hn]
  | cons r intrs ih =>
    have hr : r = .intr := hs r (List.mem_cons_self ..)
    rw [hr, List.cons_append, writeOnce]
    exact ih fun r hr => hs r (List.mem_cons_of_mem _ hr)

/-- What a write leaves of its script does not stand in the way of the next one. -/
lemma usbWrite_takes {k : UsbKind} {bs : List UInt8} {s : List WriteResult} (hbs : bs ≠ [])
    (hs : Takes k bs.length s) (more : List WriteResult) :
    ∃ rest, usbWrite k bs (s ++ more) = (bs, true, rest ++ more) ∧
      ∀ len t, Takes k len t → Takes k len (rest ++ t) := by
  cases k with
  | ffs =>
    obtain ⟨rest, hw, hrest⟩ := bulkWrite_takes hbs hs.1 hs.2 more
    refine ⟨rest, hw, fun len t ht => ⟨hrest.append ht.1, ?_⟩⟩
    rw [room_append]
    exact Nat.le_add_left_of_le ht.2
  | adb =>
    obtain ⟨intrs, n, hintrs, hn, rfl⟩ := hs
    refine ⟨[], ?_, fun len t ht => ht⟩
    rw [List.append_assoc]
    exact writeOnce_takes hintrs hn more

lemma remoteWrite_succeeds {p : Apacket} {s : List WriteResult} (hs : Patient s)
    (hroom : (wireBytes p).length ≤ room s) : ∃ s', remoteWrite p s = (wireBytes p, true, s') :=
  writeFull_room hs hroom

lemma usbRemoteWrite_succeeds {k : UsbKind} {p : Apacket} (hp : Fits p) {s t : List WriteResult}
    (hs : Takes k sizeofAmessage s) (ht : Takes k p.payload.length t) (more : List WriteResult) :
    ∃ s', usbRemoteWrite k p (s ++ (t ++ more)) = (wireBytes p, true, s') := by
  have hheader : messageBytes p.msg ≠ [] := by
    rw [← List.length_pos_iff, length_messageBytes]
    decide
  obtain ⟨rest, hw, hrest⟩ := usbWrite_takes hheader (by rwa [length_messageBytes]) (t ++ more)
  rw [usbRemoteWrite, hw]
  by_cases h0 : p.msg.dataLength = 0
  · have hnil : p.payload = [] := by simp [Apacket.payload, h0]
    refine ⟨rest ++ (t ++ more), ?_⟩
    simp only [h0, if_true, wireBytes, hnil, List.append_nil]
  · have hpayload : p.payload ≠ [] := by
      intro hnil
      apply h0
      rw [← UInt32.toNat_inj]
      have hlen : p.payload.length = p.msg.dataLength.toNat := length_payload hp
      rw [← hlen, hnil]
      rfl
    obtain ⟨rest', hw', -⟩ := usbWrite_takes hpayload (hrest _ _ ht) more
    refine ⟨rest' ++ more, ?_⟩
    rw [List.append_assoc] at hw'
    simp only [h0, if_false, hw', wireBytes]

/-! ## What the reader makes of a stream -/

/-- The reader accepts a stamped packet at the front of the stream, however it is cut. -/
lemma remoteRead_wireBytes {p : Apacket} (hp : Fits p) (addr : ℕ) (buf rest : List UInt8)
    {s : List ReadResult} (hs : Flowing s) (hb : bytesOf s = wireBytes (stamp p) ++ rest) :
    ∃ q s', remoteRead addr buf s = (some q, s') ∧ view q = view p ∧
      bytesOf s' = rest ∧ Flowing s' := by
  set m := (stamp p).msg with hm
  have hlen : p.payload.length = m.dataLength.toNat := length_payload hp
  have hb' : bytesOf s = messageBytes m ++ (p.payload ++ rest) := by
    rw [hb, wireBytes, stamp_payload, List.append_assoc]
  -- the header
  obtain ⟨s₁, hr₁, hb₁, hs₁⟩ := readFull_flowing hs (n := sizeofAmessage) (by simp [hb'])
  rw [hb', List.take_left' (length_messageBytes m)] at hr₁
  rw [hb', List.drop_left' (length_messageBytes m)] at hb₁
  -- the payload
  obtain ⟨s₂, hr₂, hb₂, hs₂⟩ := readFull_flowing hs₁ (n := m.dataLength.toNat)
    (by simp [hb₁, hlen])
  rw [hb₁, List.take_left' hlen] at hr₂
  rw [hb₁, List.drop_left' hlen] at hb₂
  set q : Apacket :=
    { addr := addr, msg := m, data := p.payload ++ buf.drop m.dataLength.toNat } with hq
  have hpay : q.payload = p.payload := List.take_left' hlen
  obtain ⟨hcheck, hdata⟩ := check_stamp hp.1
  have hqdata : checkData q = true := by
    rw [checkData, hpay]
    exact hdata
  refine ⟨q, s₂, ?_, ?_, hb₂, hs₂⟩
  · rw [remoteRead]
    simp only [readx, hr₁, messageOf_messageBytes, hm, hcheck, if_true]
    simp only [← hm, hr₂, ← hq, hqdata, if_true]
  · rw [view, view, hpay]
    rfl

lemma remoteRead_nil (addr : ℕ) (buf : List UInt8) {s : List ReadResult}
    (hb : bytesOf s = []) : (remoteRead addr buf s).1 = none := by
  have hnone : (readFull sizeofAmessage s).1 = none := by
    cases hr : readFull sizeofAmessage s with
    | mk o t =>
      cases o with
      | none => rfl
      | some bs =>
        obtain ⟨hlen, hbytes⟩ := readFull_some hr
        rw [hb, eq_comm, List.append_eq_nil_iff] at hbytes
        rw [hbytes.1] at hlen
        cases hlen
  rcases hr : readFull sizeofAmessage s with ⟨o, t⟩
  rw [hr] at hnone
  simp only at hnone
  rw [remoteRead, readx, hr, hnone]

/-- Induction over the packets: each is accepted and leaves the stream of the ones after it. -/
lemma readPackets_wireBytes (bufs : ℕ → List UInt8) {ps : List Apacket} (hps : ∀ p ∈ ps, Fits p)
    {fuel : ℕ} (hfuel : ps.length < fuel) (n : ℕ) {s : List ReadResult} (hs : Flowing s)
    (hb : bytesOf s = ps.flatMap fun p => wireBytes (stamp p)) :
    (readPackets bufs fuel n s).map view = ps.map view := by
  induction ps generalizing fuel n s with
  | nil =>
    obtain ⟨k, rfl⟩ : ∃ k, fuel = k + 1 := ⟨fuel - 1, by simp at hfuel; omega⟩
    have hnone := remoteRead_nil n (bufs n) hb
    rcases hr : remoteRead n (bufs n) s with ⟨o, t⟩
    rw [hr] at hnone
    simp only at hnone
    rw [readPackets, hr, hnone]
  | cons p ps ih =>
    obtain ⟨k, rfl⟩ : ∃ k, fuel = k + 1 := ⟨fuel - 1, by simp at hfuel; omega⟩
    rw [List.flatMap_cons] at hb
    obtain ⟨q, s', hr, hv, hb', hs'⟩ :=
      remoteRead_wireBytes (hps p (List.mem_cons_self ..)) n (bufs n) _ hs hb
    have hrest : ps.length < k := by
      rw [List.length_cons] at hfuel
      omega
    rw [readPackets, hr]
    simp only [List.map_cons, hv]
    rw [ih (fun p hp => hps p (List.mem_cons_of_mem _ hp)) hrest (n + 1) hs' hb']

/-- An accepted packet is already stamped, and its bytes are what was consumed. -/
lemma remoteRead_some {addr : ℕ} {buf : List UInt8} {s s' : List ReadResult} {p : Apacket}
    (h : remoteRead addr buf s = (some p, s')) :
    bytesOf s = wireBytes (stamp p) ++ bytesOf s' := by
  rw [remoteRead] at h
  rcases hr₁ : readFull sizeofAmessage s with ⟨o, s₁⟩
  rw [readx, hr₁] at h
  cases o with
  | none => simp at h
  | some header =>
    obtain ⟨hlen₁, hb₁⟩ := readFull_some hr₁
    by_cases hcheck : checkHeader (messageOf header) = true
    swap
    · simp [hcheck] at h
    simp only [hcheck, if_true] at h
    rcases hr₂ : readFull (messageOf header).dataLength.toNat s₁ with ⟨o, s₂⟩
    rw [readx, hr₂] at h
    cases o with
    | none => simp at h
    | some payload =>
      obtain ⟨hlen₂, hb₂⟩ := readFull_some hr₂
      simp only at h
      split at h
      swap
      · simp at h
      next hdata =>
      simp only [Prod.mk.injEq, Option.some.injEq] at h
      obtain ⟨rfl, rfl⟩ := h
      rw [stamp_of_check hcheck hdata, wireBytes, Apacket.payload, List.take_left' hlen₂,
        messageBytes_messageOf hlen₁, hb₁, hb₂, List.append_assoc]

/-! ## The round trip -/

lemma flatten_emits {ps : List Apacket} {outs : List (List UInt8)}
    (h : List.Forall₂ Emits ps outs) :
    outs.flatten = ps.flatMap fun p => wireBytes (stamp p) := by
  induction h with
  | nil => rfl
  | cons hhead _ ih =>
    obtain ⟨ws, ws', hw⟩ := hhead
    rw [List.flatten_cons, List.flatMap_cons, ih, remoteWrite_ok hw]

/-- The wire format round trip.  A stream of sent packets, cut into any non-empty reads and with
anything in the readers' buffers, is read back as the same packets and nothing else; the TCP
writer and the USB writer over either interface emit the same bytes, and do so for every packet
wherever the writes take everything; and sending an accepted packet again emits exactly the bytes
it was read from. -/
theorem wire_roundtrip :
    (∀ (ps : List Apacket) (outs chunks : List (List UInt8)) (bufs : ℕ → List UInt8) (fuel : ℕ),
      (∀ p ∈ ps, Fits p) → List.Forall₂ Emits ps outs → (∀ c ∈ chunks, c ≠ []) →
      chunks.flatten = outs.flatten → ps.length < fuel →
      (readPackets bufs fuel 0 (chunks.map .data)).map view = ps.map view) ∧
    (∀ (k : UsbKind) (p : Apacket) (ws ws' : List WriteResult) (out out' : List UInt8)
      (vs vs' : List WriteResult), remoteWrite p ws = (out, true, ws') →
      usbRemoteWrite k p vs = (out', true, vs') → out = out') ∧
    (∀ (k : UsbKind) (p : Apacket) (ws vs₁ vs₂ more : List WriteResult), Fits p →
      Patient ws → (wireBytes p).length ≤ room ws → Takes k sizeofAmessage vs₁ →
      Takes k p.payload.length vs₂ → ∃ ws' vs', remoteWrite p ws = (wireBytes p, true, ws') ∧
        usbRemoteWrite k p (vs₁ ++ (vs₂ ++ more)) = (wireBytes p, true, vs')) ∧
    (∀ (addr : ℕ) (buf : List UInt8) (s s' : List ReadResult) (p : Apacket) (out : List UInt8),
      remoteRead addr buf s = (some p, s') → Emits p out → bytesOf s = out ++ bytesOf s') := by
  refine ⟨?_, ?_, ?_, ?_⟩
  · intro ps outs chunks bufs fuel hps hsent hne hcut hfuel
    refine readPackets_wireBytes bufs hps hfuel 0 (flowing_data hne) ?_
    rw [bytesOf_data, hcut, flatten_emits hsent]
  · intro k p ws ws' out out' vs vs' hw hv
    rw [remoteWrite_ok hw, usbRemoteWrite_ok hv]
  · intro k p ws vs₁ vs₂ more hp hws hroom hheader hpayload
    obtain ⟨ws', hw⟩ := remoteWrite_succeeds hws hroom
    obtain ⟨vs', hv⟩ := usbRemoteWrite_succeeds hp hheader hpayload more
    exact ⟨ws', vs', hw, hv⟩
  · intro addr buf s s' p out hr ⟨ws, ws', hw⟩
    rw [remoteWrite_ok hw]
    exact remoteRead_some hr

/-- A write of two bytes. -/
def hi : Apacket :=
  { addr := 0, msg := { command := aWrte, arg0 := 1, arg1 := 2, dataLength := 2 },
    data := [0x68, 0x69, 0xff] }

/-- `hi` is sent in two pieces and read in three.  Over USB its header goes out in two pieces with a
write of nothing between them, or at once, and its payload in one; and what the reader accepts is
sent again. -/
theorem wire_roundtrip_hi :
    Fits hi ∧
    (readPackets (fun _ => []) 2 0
      [.data ((wireBytes (stamp hi)).take 3), .data (((wireBytes (stamp hi)).drop 3).take 22),
        .data ((wireBytes (stamp hi)).drop 25)]).map view = [(aWrte, 1, 2, [0x68, 0x69])] ∧
    (∃ ws vs vs', remoteWrite (stamp hi) [.wrote 7, .intr, .wrote 19] =
        (wireBytes (stamp hi), true, ws) ∧
      usbRemoteWrite .ffs (stamp hi) [.wrote 7, .wrote 0, .wrote 17, .intr, .wrote 2] =
        (wireBytes (stamp hi), true, vs) ∧
      usbRemoteWrite .adb (stamp hi) [.wrote 24, .intr, .wrote 2] =
        (wireBytes (stamp hi), true, vs')) ∧
    (∃ p s' out, remoteRead 0 [] [.data (wireBytes (stamp hi)), .data [0]] = (some p, s') ∧
      bytesOf s' = [0] ∧ Emits p out ∧ wireBytes (stamp hi) ++ [0] = out ++ [0]) := by
  obtain ⟨hread, -, hwrite, hagain⟩ := wire_roundtrip
  have hfits : Fits hi := by simp [Fits, hi, maxPayload]
  have hpatient : Patient [.wrote 7, .intr, .wrote 19] := by simp [Patient]
  have hheader : Takes .ffs sizeofAmessage [.wrote 7, .wrote 0, .wrote 17] :=
    ⟨by simp [Willing], by decide⟩
  have hpayload : Takes .ffs (stamp hi).payload.length [.intr, .wrote 2] :=
    ⟨by simp [Willing], by decide⟩
  have hheader' : Takes .adb sizeofAmessage [.wrote 24] := ⟨[], 24, by simp, by decide, rfl⟩
  have hpayload' : Takes .adb (stamp hi).payload.length [.intr, .wrote 2] :=
    ⟨[.intr], 2, by simp, by decide, rfl⟩
  obtain ⟨ws, vs, hws, hvs⟩ := hwrite .ffs (stamp hi) _ _ _ [] hfits hpatient (by decide)
    hheader hpayload
  obtain ⟨-, vs', -, hvs'⟩ := hwrite .adb (stamp hi) _ _ _ [] hfits hpatient (by decide)
    hheader' hpayload'
  refine ⟨hfits, ?_, ⟨ws, vs, vs', hws, hvs, hvs'⟩, ?_⟩
  · refine hread [hi] [wireBytes (stamp hi)]
      [(wireBytes (stamp hi)).take 3, ((wireBytes (stamp hi)).drop 3).take 22,
        (wireBytes (stamp hi)).drop 25] (fun _ => []) 2 ?_ ?_ ?_ ?_ ?_
    · intro p hp
      rw [List.mem_singleton] at hp
      rwa [hp]
    · exact .cons ⟨_, _, hws⟩ .nil
    · decide +kernel
    · decide +kernel
    · decide
  · have hstream : bytesOf [.data (wireBytes (stamp hi)), .data [0]] =
        wireBytes (stamp hi) ++ [0] := bytesOf_data [wireBytes (stamp hi), [0]]
    have hflow : Flowing [.data (wireBytes (stamp hi)), .data [0]] :=
      @flowing_data [wireBytes (stamp hi), [0]] (by decide +kernel)
    obtain ⟨p, s', haccept, -, hrest, -⟩ := remoteRead_wireBytes hfits 0 [] [0] hflow hstream
    have hlen : (wireBytes (stamp p)).length ≤ room [.wrote 26] := by
      have hsame := congrArg List.length (remoteRead_some haccept)
      rw [hstream, hrest, List.length_append, List.length_append] at hsame
      have hlong : (wireBytes (stamp hi)).length = 26 := by decide +kernel
      simp only [room, List.length_singleton] at hsame ⊢
      omega
    obtain ⟨ws', hsent⟩ := remoteWrite_succeeds (by simp [Patient]) hlen
    have hbytes := hagain 0 [] _ s' p _ haccept ⟨_, _, hsent⟩
    rw [hrest, hstream] at hbytes
    exact ⟨p, s', _, haccept, hrest, ⟨_, _, hsent⟩, hbytes⟩

end Adbd.WireRoundTrip
