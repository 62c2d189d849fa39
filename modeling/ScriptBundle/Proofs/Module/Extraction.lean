import ScriptBundle.Proofs.Module.TableRuns

/-!
# Taking Records out of a Table

The records of a table are taken out one by one, each from the slot of its number. A number that
comes again is passed over, so an empty slot is never asked for. What comes out are the records that
were registered first under these numbers, as they were registered.

## Main definitions

* `ModuleTable.takeFrom`: takes records out of their slots;
* `ModuleTable.IsLeftBehind`: which slots are empty once numbers have been seen;
* `ModuleTable.registrations`: the numbers that calls register records under;
* `ModuleTable.firstRecord?`: the record that is registered first under a number.

## Main statements

* `ModuleTable.takeFrom_eq`: slots do not change what comes out;
* `ModuleTable.get?_run`: a table holds what was registered first;
* `ModuleTable.recordsFrom_eq_ok_iff`, `ModuleTable.recordsFrom_eq_error_iff`: what comes out, and
  which number nothing is under;
* `ModuleTable.orderedRecords_run`: extraction loses and invents nothing.
-/

namespace ScriptBundle.ModuleTable

variable {t : ModuleTable}

/-! ### Slots -/

/-- Takes the records of numbers out of their **slots**, which are empty from then on. Numbers that
have been seen are passed over. -/
def takeFrom (slots : List (Option ModuleRecord)) (seen : List Nat) :
    List Nat → Except TableFault (List ModuleRecord)
  | [] => .ok []
  | id :: rest =>
    if seen.contains id then takeFrom slots seen rest
    else
      match slots[id]?.join with
      | none => .error (.unknownModule id)
      | some record => (takeFrom (slots.set id none) (id :: seen) rest).map (record :: ·)

/-- Whether slots are what is **left behind** of a table once numbers have been seen: the slots of
these are empty, and the others hold what the table does. -/
def IsLeftBehind (t : ModuleTable) (seen : List Nat) (slots : List (Option ModuleRecord)) : Prop :=
  ∀ id, slots[id]?.join = if id ∈ seen then none else t.get? id

/-- At first every slot holds its record. -/
theorem isLeftBehind_nil (t : ModuleTable) : t.IsLeftBehind [] (t.records.map some) := by
  intro id
  rw [List.getElem?_map, if_neg List.not_mem_nil, get?]
  cases t.records[id]? <;> rfl

/-- Taking a record out empties the slot of its number and no other one. -/
theorem IsLeftBehind.set {seen : List Nat} {slots : List (Option ModuleRecord)}
    (h : t.IsLeftBehind seen slots) (id : Nat) :
    t.IsLeftBehind (id :: seen) (slots.set id none) := by
  intro other
  by_cases hsame : other = id
  · subst hsame
    rw [if_pos List.mem_cons_self, List.getElem?_set_self']
    cases slots[other]? <;> rfl
  · have hmem : other ∈ id :: seen ↔ other ∈ seen := by simp [hsame]
    rw [List.getElem?_set_ne (Ne.symm hsame), h other]
    simp only [hmem]

/-- What comes out of the slots are the records of the table, since no number is asked for twice. -/
theorem takeFrom_eq {seen : List Nat} {slots : List (Option ModuleRecord)}
    (h : t.IsLeftBehind seen slots) (order : List Nat) :
    takeFrom slots seen order = t.recordsFrom seen order := by
  induction order generalizing seen slots with
  | nil => rfl
  | cons id rest ih =>
    rw [takeFrom, recordsFrom]
    by_cases hseen : seen.contains id = true
    · rw [if_pos hseen, if_pos hseen, ih h]
    · have hfull : slots[id]?.join = t.get? id := by
        rw [h id, if_neg (by simpa using hseen)]
      rw [if_neg hseen, if_neg hseen, hfull]
      cases t.get? id with
      | none => rfl
      | some record => exact congrArg (Except.map (record :: ·)) (ih (h.set id))

/-! ### First registrations -/

/-- The numbers that calls register records under, from a table on, in the order of the calls. A
record whose path is known is given the number that the path has. -/
def registrationsFrom (t : ModuleTable) : List TableCall → List (Nat × ModuleRecord)
  | [] => []
  | call :: rest =>
    call.record?.toList.map (fun record => (t.idAfterAdd record, record)) ++
      registrationsFrom (t.behind call) rest

/-- The **registrations** of a list of calls. -/
def registrations (calls : List TableCall) : List (Nat × ModuleRecord) :=
  empty.registrationsFrom calls

/-- The record that a list of calls registers **first** under a number. -/
def firstRecord? (calls : List TableCall) (id : Nat) : Option ModuleRecord :=
  (registrations calls).lookup id

/-- A number has a first record if it is registered. -/
theorem isSome_firstRecord?_iff {calls : List TableCall} {id : Nat} :
    (firstRecord? calls id).isSome ↔ ∃ record, (id, record) ∈ registrations calls := by
  rw [firstRecord?]
  induction registrations calls with
  | nil => simp
  | cons entry rest ih =>
    obtain ⟨other, record⟩ := entry
    by_cases hsame : id = other
    · simp [hsame]
    · have hne : (id == other) = false := by simpa using hsame
      simp [List.lookup_cons, hne, hsame, ih]

/-- Registering a record leaves what is under a number, and puts the record under its own number if
nothing is there. -/
theorem get?_add (t : ModuleTable) (record : ModuleRecord) (id : Nat) :
    (t.add record).get? id =
      (t.get? id).or (if t.idAfterAdd record = id then some record else none) := by
  cases hid : t.idOf? record.path with
  | some known =>
    rw [add_of_known hid, idAfterAdd, hid, Option.getD_some]
    split
    · next hsame =>
      obtain ⟨held, hheld, -⟩ := path_same_of_idOf? (hsame ▸ hid)
      rw [get?, hheld, Option.some_or]
    · rw [Option.or_none]
  | none =>
    have hrecords := records_add (idOf?_eq_none_iff.mp hid)
    rw [get?, hrecords, get?, idAfterAdd, hid, Option.getD_none]
    rcases Nat.lt_trichotomy id t.records.length with hlt | rfl | hgt
    · rw [List.getElem?_append_left hlt, if_neg (Nat.ne_of_gt hlt), Option.or_none]
    · rw [List.getElem?_concat_length, if_pos rfl, List.getElem?_eq_none (Nat.le_refl _),
        Option.none_or]
    · have hbehind : (t.records ++ [record]).length ≤ id := by simp; omega
      rw [List.getElem?_eq_none hbehind, List.getElem?_eq_none (Nat.le_of_lt hgt),
        if_neg (Nat.ne_of_lt hgt), Option.or_none]

/-- What calls put under a number that holds nothing is the record that they register first
there. -/
theorem get?_foldl_behind (t : ModuleTable) (calls : List TableCall) (id : Nat) :
    (calls.foldl behind t).get? id = (t.get? id).or ((t.registrationsFrom calls).lookup id) := by
  induction calls generalizing t with
  | nil => simp [registrationsFrom]
  | cons call rest ih =>
    rw [List.foldl_cons, ih]
    cases call with
    | link =>
      rw [get?, records_behind_link]
      rfl
    | add record =>
      have hregistered : t.registrationsFrom (.add record :: rest) =
          (t.idAfterAdd record, record) :: (t.add record).registrationsFrom rest := rfl
      rw [behind, get?_add, Option.or_assoc, hregistered, List.lookup_cons]
      congr 1
      by_cases hsame : t.idAfterAdd record = id
      · simp [hsame]
      · have hne : (id == t.idAfterAdd record) = false := by simpa using Ne.symm hsame
        simp [hsame, hne]

/-- A table holds under each number the record that was registered first there. -/
theorem get?_run (calls : List TableCall) (id : Nat) :
    (run calls).get? id = firstRecord? calls id :=
  (get?_foldl_behind empty calls id).trans (Option.none_or ..)

/-! ### What comes out -/

/-- What is new of a list that starts with a new number. -/
theorem eraseDups_filter_cons {seen : List Nat} {id : Nat} (h : id ∉ seen)
    (rest : List Nat) : ((id :: rest).filter (!seen.contains ·)).eraseDups =
      id :: (rest.filter (!(id :: seen).contains ·)).eraseDups := by
  rw [List.filter_cons_of_pos (by simp [h]), List.eraseDups_cons, List.filter_filter]
  simp only [List.contains_cons, Bool.not_or]

/-- The records under the numbers that have not been seen come out, each once and in the order in
which the numbers come first. -/
theorem recordsFrom_eq_ok_iff {seen order : List Nat} {records : List ModuleRecord} :
    t.recordsFrom seen order = .ok records ↔
      (order.filter (!seen.contains ·)).eraseDups.map t.get? = records.map some := by
  induction order generalizing seen records with
  | nil => cases records <;> simp [recordsFrom]
  | cons id rest ih =>
    rw [recordsFrom]
    by_cases hseen : id ∈ seen
    · rw [if_pos (by simpa using hseen), ih, List.filter_cons_of_neg (by simpa using hseen)]
    · rw [if_neg (by simpa using hseen), eraseDups_filter_cons hseen, List.map_cons]
      cases hget : t.get? id with
      | none => cases records <;> simp
      | some record =>
        rw [map_eq_ok_iff]
        constructor
        · rintro ⟨others, hothers, rfl⟩
          rw [ih.mp hothers, List.map_cons]
        · intro hmap
          cases records with
          | nil => simp at hmap
          | cons first others =>
            rw [List.map_cons, List.cons.injEq, Option.some.injEq] at hmap
            obtain ⟨rfl, hothers⟩ := hmap
            exact ⟨others, ih.mpr hothers, rfl⟩

/-- Nothing comes out if there is no record under a number, and the first such number is named. -/
theorem recordsFrom_eq_error_iff {seen order : List Nat} (hseen : ∀ id ∈ seen, (t.get? id).isSome)
    {fault : TableFault} : t.recordsFrom seen order = .error fault ↔
      ∃ id, order.find? (fun id => (t.get? id).isNone) = some id ∧ fault = .unknownModule id := by
  induction order generalizing seen with
  | nil => simp [recordsFrom]
  | cons id rest ih =>
    rw [recordsFrom]
    split
    · next hcontains =>
      have hsome := hseen id (by simpa using hcontains)
      rw [ih hseen, List.find?_cons_of_neg (by simpa [Option.isSome_iff_ne_none] using hsome)]
    · cases hget : t.get? id with
      | none =>
        rw [List.find?_cons_of_pos (by simp [hget])]
        simp [eq_comm]
      | some record =>
        have hmore : ∀ other ∈ id :: seen, (t.get? other).isSome :=
          List.forall_mem_cons.mpr ⟨by simp [hget], hseen⟩
        rw [List.find?_cons_of_neg (by simp [hget]), ← ih hmore]
        cases t.recordsFrom (id :: seen) rest <;> simp [Except.map]

/-- **Extraction loses and invents nothing.** Behind any calls the records under a list of numbers
are got exactly if each number is registered. They are those that were registered first under the
numbers, unchanged, each once and in the order in which the numbers come first. Otherwise the first
number that is not registered is named as a fault of the table. It makes no difference that records
are taken out of slots for this, which are empty from then on. -/
theorem orderedRecords_run (calls : List TableCall) (order : List Nat) :
    ((∃ records, (run calls).orderedRecords order = .ok records) ↔
      ∀ id ∈ order, ∃ record, (id, record) ∈ registrations calls) ∧
    (∀ records, (run calls).orderedRecords order = .ok records ↔
      order.eraseDups.map (firstRecord? calls) = records.map some) ∧
    (∀ fault, (run calls).orderedRecords order = .error fault ↔
      ∃ id, order.find? (fun id => (firstRecord? calls id).isNone) = some id ∧
        fault = .unknownModule id) ∧
    takeFrom ((run calls).records.map some) [] order = (run calls).orderedRecords order := by
  have hget : (run calls).get? = firstRecord? calls := funext (get?_run calls)
  have hfails : ∀ fault, (run calls).orderedRecords order = .error fault ↔
      ∃ id, order.find? (fun id => (firstRecord? calls id).isNone) = some id ∧
        fault = .unknownModule id := by
    intro fault
    rw [orderedRecords, recordsFrom_eq_error_iff (by simp), hget]
  refine ⟨?_, fun records => ?_, hfails, takeFrom_eq (isLeftBehind_nil _) order⟩
  · simp only [← isSome_firstRecord?_iff]
    constructor
    · rintro ⟨records, hrecords⟩ id hid
      by_contra hnone
      have hsome : (order.find? fun id => (firstRecord? calls id).isNone).isSome := by
        rw [List.find?_isSome]
        exact ⟨id, hid, by simpa using hnone⟩
      obtain ⟨first, hfirst⟩ := Option.isSome_iff_exists.mp hsome
      simp [(hfails _).mpr ⟨first, hfirst, rfl⟩] at hrecords
    · intro hall
      cases hordered : (run calls).orderedRecords order with
      | ok records => exact ⟨records, rfl⟩
      | error fault =>
        obtain ⟨id, hfind, -⟩ := (hfails fault).mp hordered
        have hsome := hall id (List.mem_of_find?_eq_some hfind)
        have hnone := List.find?_some hfind
        simp_all
  · have hnone : order.filter (!([] : List Nat).contains ·) = order := by simp
    rw [orderedRecords, recordsFrom_eq_ok_iff, hget, hnone]

end ScriptBundle.ModuleTable
