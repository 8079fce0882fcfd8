import Adbd.Model.Acquire

/-!
# Which transport is chosen

`acquire_one_transport` has four branches that match a transport and find out about a second
match, each with a `break` of its own, and tests the state of the one that is left behind the
loop.  The branches agree: a transport is returned exactly if it is the only one that is wanted,
and not offline, in whatever order the list is (`acquireOneTransport_iff`).
-/

namespace Adbd

namespace Acquire

/-! ## What is wanted -/

/-- The character a model name shows in a serial. -/
def sanitized (ch : UInt8) : UInt8 :=
  if (0x41 ≤ ch ∧ ch ≤ 0x5a) ∨ (0x61 ≤ ch ∧ ch ≤ 0x7a) ∨ (0x30 ≤ ch ∧ ch ≤ 0x39) then ch else 0x5f

/-- A serial matches a transport.  The empty one matches what has no name of some kind. -/
def Names (serial : List UInt8) (t : Atransport) : Prop :=
  t.serial = some serial ∨ t.devpath = some serial ∨
    if serial = [] then
      t.product.getD [] = [] ∨ t.model.getD [] = [] ∨ t.device.getD [] = []
    else
      (∃ q, t.product = some q ∧ serial = str "product:" ++ q) ∨
      (∃ q, t.model = some q ∧ serial = str "model:" ++ q.map sanitized) ∨
      (∃ q, t.device = some q ∧ serial = str "device:" ++ q)

/-- A transport is of the requested type. -/
def OfType (ttype : Requested) (t : Atransport) : Prop :=
  ttype = .any ∨ ttype = .usb ∧ t.type = .usb ∨ ttype = .loc ∧ t.type = .loc

/-- A transport that may be used matches the request. -/
def Wanted (ttype : Requested) (serial : Option (List UInt8)) (t : Atransport) : Prop :=
  t.connectionState ≠ .noperm ∧
    match serial with
    | some s => Names s t
    | none => OfType ttype t

/-! ## `qual_match` -/

lemma skipPrefix_eq_some {pre toTest rest : List UInt8} :
    skipPrefix pre toTest = some rest ↔ toTest = pre ++ rest := by
  induction pre generalizing toTest with
  | nil => simp [skipPrefix]
  | cons p ps ih =>
    cases toTest with
    | nil => simp [skipPrefix]
    | cons c cs =>
      rw [skipPrefix]
      by_cases h : p = c
      · rw [if_neg (not_not.mpr h), ih, h]
        simp
      · rw [if_pos h]
        simp [Ne.symm h]

lemma walkQual_iff (sanitizeQual : Bool) {qual toTest : List UInt8} :
    walkQual sanitizeQual qual toTest = true ↔
      toTest = qual.map fun q => if sanitizeQual && qualCharIsInvalid q then 0x5f else q := by
  induction qual generalizing toTest with
  | nil => simp [walkQual]
  | cons q qs ih =>
    cases toTest with
    | nil => simp [walkQual]
    | cons c cs =>
      rw [walkQual, List.map_cons, List.cons.injEq]
      by_cases h : (if sanitizeQual && qualCharIsInvalid q then 0x5f else q) = c
      · rw [if_neg (not_not.mpr h), ih]
        exact ⟨fun hcs => ⟨h.symm, hcs⟩, And.right⟩
      · rw [if_pos h]
        exact iff_of_false nofun fun hcs => h hcs.1.symm

lemma qualCharIsInvalid_eq_false {ch : UInt8} : qualCharIsInvalid ch = false ↔
    (0x41 ≤ ch ∧ ch ≤ 0x5a) ∨ (0x61 ≤ ch ∧ ch ≤ 0x7a) ∨ (0x30 ≤ ch ∧ ch ≤ 0x39) := by
  rw [qualCharIsInvalid]
  split_ifs with h₁ h₂ h₃ <;> tauto

lemma sanitized_eq (q : UInt8) :
    (if true && qualCharIsInvalid q then 0x5f else q) = sanitized q := by
  rw [sanitized, Bool.true_and]
  cases h : qualCharIsInvalid q with
  | false => rw [if_pos (qualCharIsInvalid_eq_false.mp h), if_neg Bool.false_ne_true]
  | true =>
    rw [if_neg fun hq => Bool.false_ne_true ((qualCharIsInvalid_eq_false.mpr hq).symm.trans h),
      if_pos rfl]

/-- `qual_match` of a serial that is not empty. -/
lemma qualMatch_iff {toTest pre : List UInt8} {qual : Option (List UInt8)} (sanitizeQual : Bool)
    (h : toTest ≠ []) :
    qualMatch toTest pre qual sanitizeQual = true ↔ ∃ q, qual = some q ∧
      toTest = pre ++ q.map fun q => if sanitizeQual && qualCharIsInvalid q then 0x5f else q := by
  unfold qualMatch
  rw [if_neg h]
  cases qual with
  | none => simp
  | some q =>
    have hskip := fun rest => @skipPrefix_eq_some pre toTest rest
    cases hs : skipPrefix pre toTest with
    | none =>
      refine iff_of_false nofun ?_
      rintro ⟨q', -, htest⟩
      rw [(hskip _).mpr htest] at hs
      cases hs
    | some rest =>
      have hrest := (hskip rest).mp hs
      dsimp only
      rw [walkQual_iff]
      constructor
      · rintro rfl
        exact ⟨q, rfl, hrest⟩
      · rintro ⟨q', hq', htest⟩
        cases hq'
        exact List.append_cancel_left (hrest.symm.trans htest)

/-- `qual_match` of the empty serial. -/
lemma qualMatch_nil {pre : List UInt8} {qual : Option (List UInt8)} (sanitizeQual : Bool) :
    qualMatch [] pre qual sanitizeQual = true ↔ qual.getD [] = [] := by
  unfold qualMatch
  rw [if_pos rfl]
  cases qual <;> simp

/-- The condition on `serial` says what it is meant to say. -/
lemma serialMatches_iff (serial : List UInt8) (t : Atransport) :
    serialMatches serial t = true ↔ Names serial t := by
  rw [serialMatches, Names]
  simp only [Bool.or_eq_true, decide_eq_true_eq, or_assoc]
  by_cases h : serial = []
  · rw [if_pos h, h, qualMatch_nil, qualMatch_nil, qualMatch_nil]
  · have hplain : ∀ q : List UInt8,
        (q.map fun q => if false && qualCharIsInvalid q then 0x5f else q) = q := by
      simp
    rw [if_neg h, qualMatch_iff false h, qualMatch_iff true h, qualMatch_iff false h]
    simp only [hplain, sanitized_eq]

/-! ## The loop -/

variable {ttype : Requested} {serial : Option (List UInt8)} {heap : TAddr → Atransport}

open Classical in
/-- One round: a wanted transport is the result, or the second match; any other is passed over. -/
noncomputable def round (ttype : Requested) (serial : Option (List UInt8))
    (heap : TAddr → Atransport) (t : TAddr) (ts : List TAddr) (result : Option TAddr)
    (err : String) : Option TAddr × Bool × String :=
  if Wanted ttype serial (heap t) then
    match result with
    | some _ => (none, true, err)
    | none => scan ttype serial heap ts (some t) err
  else scan ttype serial heap ts result err

variable {t : TAddr} {ts : List TAddr} {result : Option TAddr}

lemma round_found (hw : Wanted ttype serial (heap t)) (err text : String) :
    ∃ err', (match result with
      | some _ => (none, true, text)
      | none => scan ttype serial heap ts (some t) err) =
        round ttype serial heap t ts result err' := by
  unfold round
  cases result with
  | none => exact ⟨err, (if_pos hw).symm⟩
  | some _ => exact ⟨text, (if_pos hw).symm⟩

lemma round_passed (hw : ¬Wanted ttype serial (heap t)) (err : String) :
    ∃ err', scan ttype serial heap ts result err = round ttype serial heap t ts result err' :=
  ⟨err, (if_neg hw).symm⟩

/-- The four branches agree. -/
lemma scan_cons (ttype : Requested) (serial : Option (List UInt8)) (heap : TAddr → Atransport)
    (t : TAddr) (ts : List TAddr) (result : Option TAddr) (err : String) :
    ∃ err', scan ttype serial heap (t :: ts) result err =
      round ttype serial heap t ts result err' := by
  rw [scan.eq_def]
  dsimp only
  split
  case isTrue hno => exact round_passed (fun hw => hw.1 hno) _
  case isFalse hno =>
  cases serial with
  | some s =>
    dsimp only
    split
    case isTrue hm => exact round_found ⟨hno, (serialMatches_iff s _).mp hm⟩ _ _
    case isFalse hm => exact round_passed (fun hw => hm ((serialMatches_iff s _).mpr hw.2)) _
  | none =>
    dsimp only
    split
    case isTrue husb => exact round_found ⟨hno, Or.inr (Or.inl husb)⟩ _ _
    case isFalse husb =>
    split
    case isTrue hloc => exact round_found ⟨hno, Or.inr (Or.inr hloc)⟩ _ _
    case isFalse hloc =>
    split
    case isTrue hany => exact round_found ⟨hno, Or.inl hany⟩ _ _
    case isFalse hany =>
      apply round_passed
      rintro ⟨-, h | h | h⟩ <;> contradiction

open Classical in
/-- The wanted transports of the list. -/
noncomputable def wanted (ttype : Requested) (serial : Option (List UInt8))
    (heap : TAddr → Atransport) (ts : List TAddr) : List TAddr :=
  ts.filter fun t => Wanted ttype serial (heap t)

/-- The result behind the loop: the match that is there alone. -/
def alone : List TAddr → Option TAddr
  | [t] => some t
  | _ => none

lemma alone_eq_some {ts : List TAddr} {t : TAddr} : alone ts = some t ↔ ts = [t] := by
  rcases ts with _ | ⟨u, _ | ⟨v, ts⟩⟩ <;> simp [alone]

/-- The loop with a match found already. -/
lemma scan_some (ts : List TAddr) (r : TAddr) (err : String) :
    (scan ttype serial heap ts (some r) err).1 = alone (r :: wanted ttype serial heap ts) := by
  induction ts generalizing err with
  | nil => rfl
  | cons t ts ih =>
    obtain ⟨err', h⟩ := scan_cons ttype serial heap t ts (some r) err
    rw [h, round]
    by_cases hw : Wanted ttype serial (heap t)
    · rw [if_pos hw, wanted, List.filter_cons_of_pos (by simpa using hw)]
      rfl
    · rw [if_neg hw, ih, wanted, wanted, List.filter_cons_of_neg (by simpa using hw)]

/-- The loop finds the wanted transport if there is one alone. -/
lemma scan_none (ttype : Requested) (serial : Option (List UInt8)) (heap : TAddr → Atransport)
    (ts : List TAddr) (err : String) :
    (scan ttype serial heap ts none err).1 = alone (wanted ttype serial heap ts) := by
  induction ts generalizing err with
  | nil => rfl
  | cons t ts ih =>
    obtain ⟨err', h⟩ := scan_cons ttype serial heap t ts none err
    rw [h, round]
    by_cases hw : Wanted ttype serial (heap t)
    · rw [if_pos hw, wanted, List.filter_cons_of_pos (by simpa using hw)]
      exact scan_some ts t err'
    · rw [if_neg hw, ih, wanted, wanted, List.filter_cons_of_neg (by simpa using hw)]

/-- What the loop finds is in the list. -/
lemma scan_mem (ttype : Requested) (serial : Option (List UInt8)) (heap : TAddr → Atransport)
    (ts : List TAddr) (t : TAddr) (err : String)
    (h : (scan ttype serial heap ts none err).1 = some t) : t ∈ ts := by
  rw [scan_none, alone_eq_some] at h
  have ht : t ∈ wanted ttype serial heap ts := by
    rw [h]
    exact List.mem_singleton_self t
  exact (List.mem_filter.mp ht).1

/-! ## The choice -/

/-- With `state = CS_ANY` the function returns at once what the loop found, unless it is
offline, and leaves an error text exactly if it returns nothing. -/
lemma acquireOneTransport_any (ttype : Requested) (serial : Option (List UInt8))
    (heap : TAddr → Atransport) (ts : List TAddr) :
    ∃ err, acquireOneTransport none ttype serial heap ts =
        some ((alone (wanted ttype serial heap ts)).filter fun t =>
          (heap t).connectionState ≠ .offline, err) ∧
      (err = none ↔ ∃ t, ((alone (wanted ttype serial heap ts)).filter fun t =>
          (heap t).connectionState ≠ .offline) = some t) := by
  have hscan := scan_none ttype serial heap ts "device not found"
  rw [acquireOneTransport]
  rcases hs : scan ttype serial heap ts none "device not found" with ⟨result, ambiguous, err⟩
  rw [hs] at hscan
  dsimp only at hscan ⊢
  rw [← hscan]
  cases result with
  | none => exact ⟨some err, by simp, by simp⟩
  | some t =>
    by_cases hoff : (heap t).connectionState = .offline
    · exact ⟨some "device offline", by simp [hoff, Option.filter], by simp [hoff, Option.filter]⟩
    · exact ⟨none, by simp [hoff, Option.filter], by simp [hoff, Option.filter]⟩

/-- The chosen one. -/
def Chosen (ttype : Requested) (serial : Option (List UInt8)) (heap : TAddr → Atransport)
    (ts : List TAddr) (t : TAddr) : Prop :=
  (t ∈ ts ∧ Wanted ttype serial (heap t) ∧ ∀ u ∈ ts, Wanted ttype serial (heap u) → u = t) ∧
    (heap t).connectionState ≠ .offline

lemma wanted_eq_singleton {ts : List TAddr} (hts : ts.Nodup) {t : TAddr} :
    wanted ttype serial heap ts = [t] ↔
      t ∈ ts ∧ Wanted ttype serial (heap t) ∧ ∀ u ∈ ts, Wanted ttype serial (heap u) → u = t := by
  have hmem : ∀ u, u ∈ wanted ttype serial heap ts ↔ u ∈ ts ∧ Wanted ttype serial (heap u) := by
    simp [wanted]
  constructor
  · intro h
    have ht := (hmem t).mp (by rw [h]; exact List.mem_singleton_self t)
    refine ⟨ht.1, ht.2, fun u hu hw => ?_⟩
    have hu' := (hmem u).mpr ⟨hu, hw⟩
    rw [h] at hu'
    exact List.mem_singleton.mp hu'
  · rintro ⟨ht, hw, honly⟩
    have hnodup : (wanted ttype serial heap ts).Nodup := hts.filter _
    apply List.perm_singleton.mp
    rw [List.perm_ext_iff_of_nodup hnodup (by simp)]
    intro u
    rw [hmem, List.mem_singleton]
    constructor
    · rintro ⟨hu, hwu⟩
      exact honly u hu hwu
    · rintro rfl
      exact ⟨ht, hw⟩

/-- A transport is returned exactly if it is the only one wanted and not offline; `error_out` is
null exactly if one is returned; and another order of the list returns the same. -/
theorem acquireOneTransport_iff {ts : List TAddr} (hts : ts.Nodup) :
    ∃ result err, acquireOneTransport none ttype serial heap ts = some (result, err) ∧
      (∀ t, result = some t ↔ Chosen ttype serial heap ts t) ∧
      (err = none ↔ ∃ t, result = some t) ∧
      ∀ ts', ts'.Perm ts →
        ∃ err', acquireOneTransport none ttype serial heap ts' = some (result, err') := by
  obtain ⟨err, hcall, herr⟩ := acquireOneTransport_any ttype serial heap ts
  refine ⟨_, err, hcall, fun t => ?_, herr, fun ts' hperm => ?_⟩
  · rw [Option.filter_eq_some_iff, alone_eq_some, wanted_eq_singleton hts, decide_eq_true_eq]
    rfl
  · obtain ⟨err', hcall', -⟩ := acquireOneTransport_any ttype serial heap ts'
    have hwanted : alone (wanted ttype serial heap ts') = alone (wanted ttype serial heap ts) := by
      have hp : (wanted ttype serial heap ts').Perm (wanted ttype serial heap ts) :=
        hperm.filter _
      apply Option.ext
      intro t
      rw [alone_eq_some, alone_eq_some]
      constructor
      · intro h
        exact List.perm_singleton.mp (h ▸ hp.symm)
      · intro h
        exact List.perm_singleton.mp (h ▸ hp)
    rw [hwanted] at hcall'
    exact ⟨err', hcall'⟩

/-- Two transports of different types, the local one offline. -/
theorem acquireOneTransport_iff_two :
    ∃ result err, acquireOneTransport none .usb none
        (fun t => if t = 0 then { type := .usb, connectionState := .device } else { type := .loc })
        [0, 1] = some (result, err) ∧
      (∀ t, result = some t ↔ Chosen .usb none
        (fun t => if t = 0 then { type := .usb, connectionState := .device } else { type := .loc })
        [0, 1] t) ∧
      (err = none ↔ ∃ t, result = some t) ∧
      ∀ ts' : List TAddr, ts'.Perm [0, 1] → ∃ err', acquireOneTransport none .usb none
        (fun t => if t = 0 then { type := .usb, connectionState := .device } else { type := .loc })
        ts' = some (result, err') :=
  acquireOneTransport_iff (by decide)

/-! ## The daemon's call -/

/-- What a call of the daemon passes. -/
def typeOf : Daemon.TransportChoice → Requested
  | .any => .any
  | .kind .usb => .usb
  | .kind .loc => .loc
  | .serial _ => .any

def serialOf : Daemon.TransportChoice → Option (List UInt8)
  | .serial s => some s
  | _ => none

/-- The two embeddings of `qual_match` agree. -/
lemma qualMatch_eq (toTest pre : List UInt8) (qual : Option (List UInt8)) (sanitizeQual : Bool) :
    Daemon.qualMatch (some toTest) pre qual sanitizeQual =
      qualMatch toTest pre qual sanitizeQual := by
  have hclean : ∀ q : List UInt8, (if sanitizeQual then q.map sanitized else q) =
      q.map fun q => if sanitizeQual && qualCharIsInvalid q then 0x5f else q := by
    intro q
    cases sanitizeQual with
    | false => simp
    | true =>
      simp only [sanitized_eq]
      rfl
  apply Bool.eq_iff_iff.mpr
  cases toTest with
  | nil =>
    rw [qualMatch_nil]
    cases qual <;> simp [Daemon.qualMatch]
  | cons c cs =>
    rw [qualMatch_iff sanitizeQual (List.cons_ne_nil c cs)]
    cases qual with
    | none => simp [Daemon.qualMatch]
    | some q =>
      rw [Daemon.qualMatch]
      simp only [← hclean, decide_eq_true_eq, Option.some.injEq, exists_eq_left']
      rfl

lemma choiceMatches_serial (s : List UInt8) (x : Atransport) :
    Daemon.choiceMatches (.serial s) x = serialMatches s x := by
  rw [Daemon.choiceMatches, serialMatches, qualMatch_eq, qualMatch_eq, qualMatch_eq]

/-- The two embeddings of the loop agree on a list of live transports. -/
lemma acquireLoop_eq {D : Daemon} {heap : TAddr → Atransport} (c : Daemon.TransportChoice)
    {ts : List TAddr} (hlive : ∀ t ∈ ts, D.transports t = some (heap t)) (result : Option TAddr)
    (err : String) :
    Daemon.acquireLoop c D ts result err =
      ((scan (typeOf c) (serialOf c) heap ts result err).1,
        (scan (typeOf c) (serialOf c) heap ts result err).2.2) := by
  induction ts generalizing result err with
  | nil => rfl
  | cons t ts ih =>
    have hrest := fun result err => ih (fun u hu => hlive u (List.mem_cons_of_mem t hu)) result err
    rw [Daemon.acquireLoop.eq_def, scan.eq_def]
    dsimp only
    rw [hlive t List.mem_cons_self]
    dsimp only
    by_cases hno : (heap t).connectionState = .noperm
    · rw [if_pos hno, if_pos hno, hrest]
    rw [if_neg hno, if_neg hno]
    rcases c with _ | k | s
    · cases result <;> simp [typeOf, serialOf, Daemon.choiceMatches, hrest]
    · cases k <;> cases hk : (heap t).type <;> cases result <;>
        simp [typeOf, serialOf, Daemon.choiceMatches, hrest, hk]
    · rw [choiceMatches_serial]
      cases hm : serialMatches s (heap t) <;> cases result <;> simp [serialOf, hm, hrest]

/-- What `smart_socket_enqueue` is given is what `acquire_one_transport` returns. -/
theorem acquireOneTransport_eq {D : Daemon} {heap : TAddr → Atransport} (c : Daemon.TransportChoice)
    (hlive : ∀ t ∈ D.transportList, D.transports t = some (heap t)) :
    acquireOneTransport none (typeOf c) (serialOf c) heap D.transportList =
      some (match D.acquireOneTransport c with
        | .ok t => (some t, none)
        | .error err => (none, some err)) := by
  have hloop := acquireLoop_eq c hlive none "device not found"
  rw [acquireOneTransport, Daemon.acquireOneTransport, hloop]
  have hmem := fun t => (scan_mem (typeOf c) (serialOf c) heap D.transportList t "device not found")
  rcases hs : scan (typeOf c) (serialOf c) heap D.transportList none "device not found" with
    ⟨_ | t, ambiguous, err⟩
  · simp
  · rw [hs] at hmem
    have hx := hlive t (hmem t rfl)
    by_cases hoff : (heap t).connectionState = .offline <;> simp [hx, hoff]

end Acquire

end Adbd
