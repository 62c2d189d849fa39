import ScriptBundle.BuildContext
import ScriptBundle.Metadata.Placeholder
import Mathlib.Data.List.Induction
import Mathlib.Data.List.Infix
import Mathlib.Data.List.Nodup

/-!
# Filling Placeholders at Once

The placeholders of a text are replaced one after the other, and each pass runs over what the passes
before it have put there. A value that holds a placeholder is expanded by a later pass, and a value
may also make up a placeholder with the text on its sides. As long as a pass finds no more than what
was declared, the result is that of filling all of them at once, whatever the order of the passes.

## Main definitions

* `fillFrom`, `fillAtOnce`: a text in which every placeholder of a list is replaced in one pass;
* `AreApart`: placeholders of which no two share a character of a text;
* `PassFinds`, `FindsDeclared`: a pass, or every pass, finds the placeholders of the declared text
  alone;
* `IsUnopened`: in front of a placeholder no other one has been begun.

## Main statements

* `fillAtOnce_perm`: the order of a list does not matter for one pass;
* `fillPlaceholders_eq_fillAtOnce`: passes that find what was declared fill a text at once;
* `findsDeclared_of_unopened`: if no value opens a placeholder, every pass finds no more than that;
* `substitute_at_once`: the same for every value of a header;
* `substitute_of_unopened`: so a header is filled at once if no value of the build holds an opening
  brace and no placeholder is begun in front of another one in its texts, which can be checked.
-/

namespace ScriptBundle

variable {values before : List (String × String)} {placeholder replacement : String}

/-! ### One pass -/

/-- The entry of a list whose placeholder a text starts with. -/
def placeholderAt? (values : List (String × String)) (s : Text) : Option (String × String) :=
  values.find? fun value => value.1.toList.isPrefixOf s

/-- Replaces every placeholder of a list by its value, from left to right, after `skip` characters
that belong to a placeholder already replaced. -/
def fillFrom (values : List (String × String)) : (skip : Nat) → Text → Text
  | _, [] => []
  | skip + 1, _ :: rest => fillFrom values skip rest
  | 0, c :: rest =>
    match placeholderAt? values (c :: rest) with
    | some (placeholder, value) =>
      value.toList ++ fillFrom values (placeholder.toList.length - 1) rest
    | none => c :: fillFrom values 0 rest

/-- A string with its placeholders filled **at once**. -/
def fillAtOnce (values : List (String × String)) (s : String) : String :=
  String.ofList (fillFrom values 0 s.toList)

/-- Fills every text of every value at once. -/
def Metadata.filledAtOnce (m : Metadata) (values : List (String × String)) : Metadata :=
  ⟨m.fields.map fun (key, value) => (key, value.map (fillAtOnce values))⟩

@[simp] theorem fillFrom_nil (skip : Nat) : fillFrom values skip [] = [] := by
  cases skip <;> rfl

/-- What belongs to a placeholder is passed. -/
theorem fillFrom_length (s t : Text) : fillFrom values s.length (s ++ t) = fillFrom values 0 t := by
  induction s with
  | nil => rfl
  | cons c s ih => exact ih

/-- A character stays if no placeholder starts with it. -/
theorem fillFrom_cons {c : Char} {s : Text} (h : ∀ value ∈ values, ¬value.1.toList <+: c :: s) :
    fillFrom values 0 (c :: s) = c :: fillFrom values 0 s := by
  have hnone : placeholderAt? values (c :: s) = none :=
    List.find?_eq_none.mpr fun value hvalue hleads =>
      h value hvalue (List.isPrefixOf_iff_prefix.mp hleads)
  rw [fillFrom, hnone]

/-- Replacing one text is filling with a list of one. -/
theorem replaceString_eq_fillAtOnce (h : placeholder.toList ≠ []) (s : String) :
    replaceString s placeholder replacement = fillAtOnce [(placeholder, replacement)] s := by
  have hfrom : ∀ (s : Text) (skip : Nat),
      Text.replaceFrom placeholder.toList replacement.toList skip s =
        fillFrom [(placeholder, replacement)] skip s := by
    intro s
    induction s with
    | nil => intro skip; cases skip <;> rfl
    | cons c s ih =>
      rintro (_ | skip)
      · rw [Text.replaceFrom, fillFrom, placeholderAt?, List.find?_singleton]
        split <;> simp only [ih]
      · exact ih skip
  rw [replaceString, Text.replaceAll, if_neg (by simpa using h), hfrom, fillAtOnce]

/-! ### Placeholders -/

/-- **Placeholders apart.** Where one of them stands in a text, no other one starts before it ends,
and no two entries of the list have the same one. -/
structure AreApart (values : List (String × String)) : Prop where
  nodup : (values.map Prod.fst).Nodup
  nonempty : ∀ value ∈ values, value.1.toList ≠ []
  apart : ∀ value ∈ values, ∀ other ∈ values, ∀ tail ∈ value.1.toList.tails, tail ≠ [] →
    other.1.toList <+: tail ∨ tail <+: other.1.toList →
    tail = value.1.toList ∧ other.1 = value.1

namespace AreApart

/-- Fewer entries are apart, too. -/
theorem sublist (h : AreApart values) (hsub : before.Sublist values) : AreApart before where
  nodup := h.nodup.sublist (hsub.map Prod.fst)
  nonempty value hvalue := h.nonempty value (hsub.subset hvalue)
  apart value hvalue other hother :=
    h.apart value (hsub.subset hvalue) other (hsub.subset hother)

/-- The order does not matter. -/
theorem perm (h : AreApart values) (hperm : before.Perm values) : AreApart before where
  nodup := (hperm.map Prod.fst).nodup_iff.mpr h.nodup
  nonempty value hvalue := h.nonempty value (hperm.subset hvalue)
  apart value hvalue other hother :=
    h.apart value (hperm.subset hvalue) other (hperm.subset hother)

/-- What starts inside of a placeholder is that placeholder itself. -/
theorem eq_of_prefix (h : AreApart values) {value other : String × String} (hvalue : value ∈ values)
    (hother : other ∈ values) {front tail rest : Text} (hsplit : value.1.toList = front ++ tail)
    (htail : tail ≠ []) (hleads : other.1.toList <+: tail ++ rest) :
    front = [] ∧ other.1 = value.1 := by
  have hmeet := List.prefix_or_prefix_of_prefix hleads (List.prefix_append tail rest)
  have hmem : tail ∈ value.1.toList.tails := (List.mem_tails _ _).mpr ⟨front, hsplit.symm⟩
  obtain ⟨hfull, hsame⟩ := h.apart value hvalue other hother tail hmem htail hmeet
  exact ⟨List.append_left_eq_self.mp (hsplit.symm.trans hfull.symm), hsame⟩

/-- Behind a placeholder at the front of a text, any other one stands in the rest. -/
theorem split (h : AreApart values) {value other : String × String} (hvalue : value ∈ values)
    (hother : other ∈ values) {s front behind : Text}
    (heq : value.1.toList ++ s = front ++ other.1.toList ++ behind) :
    (front = [] ∧ other.1 = value.1) ∨
      ∃ front', front = value.1.toList ++ front' ∧ s = front' ++ other.1.toList ++ behind := by
  rw [List.append_assoc, List.append_eq_append_iff] at heq
  rcases heq with ⟨front', rfl, hrest⟩ | ⟨tail, hsplit, hrest⟩
  · exact .inr ⟨front', rfl, by rw [hrest, List.append_assoc]⟩
  · by_cases htail : tail = []
    · subst htail
      exact .inr ⟨[], by simpa using hsplit.symm, by simpa using hrest.symm⟩
    · exact .inl (h.eq_of_prefix hvalue hother hsplit htail ⟨behind, hrest⟩)

/-- A placeholder at the front of a text is filled, and then the rest. -/
theorem fillFrom_placeholder (h : AreApart values)
    (hmem : (placeholder, replacement) ∈ values) (s : Text) :
    fillFrom values 0 (placeholder.toList ++ s) = replacement.toList ++ fillFrom values 0 s := by
  have hfound : placeholderAt? values (placeholder.toList ++ s) =
      some (placeholder, replacement) := by
    unfold placeholderAt?
    cases hcase : values.find? fun value => value.1.toList.isPrefixOf (placeholder.toList ++ s) with
    | none =>
      have hnone := List.find?_eq_none.mp hcase _ hmem
      exact absurd (List.isPrefixOf_iff_prefix.mpr (List.prefix_append _ _)) hnone
    | some found =>
      have hfoundMem := List.mem_of_find?_eq_some hcase
      have hleads : found.1.toList <+: placeholder.toList ++ s := by
        simpa using List.find?_some hcase
      obtain ⟨-, hsame⟩ := h.eq_of_prefix hmem hfoundMem (List.nil_append _).symm
        (h.nonempty _ hmem) hleads
      exact congrArg some (List.inj_on_of_nodup_map h.nodup hfoundMem hmem hsame)
  obtain ⟨c, rest, hcons⟩ := List.exists_cons_of_ne_nil (h.nonempty _ hmem)
  simp only at hcons
  rw [hcons, List.cons_append] at hfound ⊢
  rw [fillFrom, hfound]
  simp only [hcons, List.length_cons, Nat.add_sub_cancel]
  rw [fillFrom_length]

/-- A placeholder that is not on the list stays as it is. -/
theorem fillFrom_other (h : AreApart (before ++ [(placeholder, replacement)])) (s : Text) :
    fillFrom before 0 (placeholder.toList ++ s) =
      placeholder.toList ++ fillFrom before 0 s := by
  have hmem : (placeholder, replacement) ∈ before ++ [(placeholder, replacement)] := by simp
  have htails : ∀ tail front, placeholder.toList = front ++ tail →
      fillFrom before 0 (tail ++ s) = tail ++ fillFrom before 0 s := by
    intro tail
    induction tail with
    | nil => exact fun _ _ => rfl
    | cons c tail ih =>
      intro front hsplit
      rw [List.cons_append, List.cons_append, fillFrom_cons,
        ih (front ++ [c]) (by rw [hsplit, List.append_assoc, List.singleton_append])]
      intro value hvalue hleads
      obtain ⟨-, hsame⟩ := h.eq_of_prefix hmem (List.mem_append_left _ hvalue) hsplit
        (List.cons_ne_nil _ _) hleads
      have hnodup := h.nodup
      rw [List.map_append, List.nodup_append] at hnodup
      exact hnodup.2.2 value.1 (List.mem_map_of_mem hvalue) placeholder (by simp) hsame
  exact htails placeholder.toList [] rfl

end AreApart

/-- A text is empty, or starts with a character at which no placeholder of a list starts, or with a
placeholder of the list. -/
theorem placeholder_induction (hnonempty : ∀ value ∈ values, value.1.toList ≠ [])
    {motive : Text → Prop} (nil : motive [])
    (keep : ∀ c s, (∀ value ∈ values, ¬value.1.toList <+: c :: s) → motive s → motive (c :: s))
    (fill : ∀ value ∈ values, ∀ s, motive s → motive (value.1.toList ++ s)) (s : Text) :
    motive s := by
  induction hlen : s.length using Nat.strongRecOn generalizing s with
  | _ n ih =>
    subst hlen
    cases s with
    | nil => exact nil
    | cons c s =>
      by_cases hfront : ∃ value ∈ values, value.1.toList <+: c :: s
      · obtain ⟨value, hvalue, rest, hrest⟩ := hfront
        have hpos := List.length_pos_of_ne_nil (hnonempty value hvalue)
        have hshort : rest.length < (c :: s).length := by
          rw [← hrest, List.length_append]
          omega
        exact hrest ▸ fill value hvalue rest (ih _ hshort rest rfl)
      · push Not at hfront
        exact keep c s hfront (ih _ (Nat.lt_succ_self _) s rfl)

/-- **The order does not matter** for one pass. -/
theorem fillAtOnce_perm (h : AreApart values) (hperm : before.Perm values) (s : String) :
    fillAtOnce before s = fillAtOnce values s := by
  refine congrArg String.ofList ?_
  induction s.toList using placeholder_induction h.nonempty with
  | nil => rfl
  | keep c s hnone ih =>
    rw [fillFrom_cons hnone,
      fillFrom_cons fun value hvalue => hnone value (hperm.subset hvalue), ih]
  | fill value hvalue s ih =>
    rw [h.fillFrom_placeholder hvalue,
      (h.perm hperm).fillFrom_placeholder (hperm.mem_iff.mpr hvalue), ih]

/-! ### Pass after pass -/

/-- Whether a pass **finds what was declared** in a text filled by the passes before it: a
placeholder found there stands in the text itself, and what is around it has been made of what is
around it there. -/
def PassFinds (before : List (String × String)) (placeholder : String) (s : Text) : Prop :=
  ∀ front behind, fillFrom before 0 s = front ++ placeholder.toList ++ behind →
    ∃ front' behind', s = front' ++ placeholder.toList ++ behind' ∧
      fillFrom before 0 front' = front ∧ fillFrom before 0 behind' = behind

/-- Whether every pass of a list finds what was declared. -/
def FindsDeclared (values : List (String × String)) (s : Text) : Prop :=
  ∀ before placeholder replacement after, values = before ++ (placeholder, replacement) :: after →
    PassFinds before placeholder s

/-- The passes before the last one find what was declared if all of them do. -/
theorem FindsDeclared.of_append {after : List (String × String)} {s : Text}
    (h : FindsDeclared (before ++ after) s) : FindsDeclared before s := by
  intro first placeholder replacement others heq
  exact h first placeholder replacement (others ++ after) (by rw [heq]; simp)

namespace PassFinds

/-- Behind a character at which no placeholder starts a pass finds the same, and it finds nothing at
that character. -/
theorem of_keep {c : Char} {s : Text} (h : PassFinds before placeholder (c :: s))
    (hnone : ∀ value ∈ before, ¬value.1.toList <+: c :: s)
    (hother : ¬placeholder.toList <+: c :: s) :
    PassFinds before placeholder s ∧ ¬placeholder.toList <+: c :: fillFrom before 0 s := by
  have hkept : ∀ front, front <+: s →
      fillFrom before 0 (c :: front) = c :: fillFrom before 0 front := fun front hfront =>
    fillFrom_cons fun value hvalue hleads =>
      hnone value hvalue (hleads.trans (List.cons_prefix_cons.mpr ⟨rfl, hfront⟩))
  -- the text in front of a placeholder starts with the character that is kept
  have hbehind : ∀ front behind,
      c :: fillFrom before 0 s = front ++ placeholder.toList ++ behind →
      ∃ front' behind', s = front' ++ placeholder.toList ++ behind' ∧
        c :: fillFrom before 0 front' = front ∧ fillFrom before 0 behind' = behind := by
    intro front behind heq
    rw [← hkept s (List.prefix_refl s)] at heq
    obtain ⟨front', behind', hs, hfront, hrest⟩ := h front behind heq
    cases front' with
    | nil => exact absurd ⟨behind', hs.symm⟩ hother
    | cons d front' =>
      simp only [List.cons_append, List.cons.injEq] at hs
      obtain ⟨rfl, rfl⟩ := hs
      refine ⟨front', behind', rfl, ?_, hrest⟩
      rw [← hkept front' (by rw [List.append_assoc]; exact List.prefix_append _ _), hfront]
  constructor
  · intro front behind heq
    obtain ⟨front', behind', hs, hfront, hrest⟩ := hbehind (c :: front) behind (by rw [heq]; rfl)
    exact ⟨front', behind', hs, List.tail_eq_of_cons_eq hfront, hrest⟩
  · rintro ⟨behind, heq⟩
    obtain ⟨_, _, -, hfront, -⟩ := hbehind [] behind heq.symm
    exact List.cons_ne_nil _ _ hfront

/-- Behind a placeholder that has been replaced a pass finds the same, and nothing it finds starts
within the value. -/
theorem of_fill (happart : AreApart (before ++ [(placeholder, replacement)]))
    {value : String × String} (hvalue : value ∈ before) {s : Text}
    (h : PassFinds before placeholder (value.1.toList ++ s)) :
    PassFinds before placeholder s ∧ ∀ front behind,
      value.2.toList ++ fillFrom before 0 s = front ++ placeholder.toList ++ behind →
      value.2.toList <+: front := by
  have hfilled : ∀ rest, fillFrom before 0 (value.1.toList ++ rest) =
      value.2.toList ++ fillFrom before 0 rest := fun rest =>
    (happart.sublist (List.sublist_append_left _ _)).fillFrom_placeholder hvalue rest
  have hother : placeholder ≠ value.1 := by
    have hnodup := happart.nodup
    rw [List.map_append, List.nodup_append] at hnodup
    exact (hnodup.2.2 value.1 (List.mem_map_of_mem hvalue) placeholder (by simp)).symm
  have hbehind : ∀ front behind,
      value.2.toList ++ fillFrom before 0 s = front ++ placeholder.toList ++ behind →
      ∃ front' behind', s = front' ++ placeholder.toList ++ behind' ∧
        value.2.toList ++ fillFrom before 0 front' = front ∧
        fillFrom before 0 behind' = behind := by
    intro front behind heq
    rw [← hfilled] at heq
    obtain ⟨front', behind', hs, hfront, hrest⟩ := h front behind heq
    have hlast : (placeholder, replacement) ∈ before ++ [(placeholder, replacement)] := by simp
    rcases happart.split (List.mem_append_left _ hvalue) hlast hs with
      ⟨-, hsame⟩ | ⟨front'', rfl, hs'⟩
    · exact absurd hsame hother
    · exact ⟨front'', behind', hs', by rw [← hfilled, hfront], hrest⟩
  constructor
  · intro front behind heq
    obtain ⟨front', behind', hs, hfront, hrest⟩ :=
      hbehind (value.2.toList ++ front) behind (by rw [heq]; simp)
    exact ⟨front', behind', hs, List.append_cancel_left hfront, hrest⟩
  · intro front behind heq
    obtain ⟨front', -, -, hfront, -⟩ := hbehind front behind heq
    exact ⟨_, hfront⟩

/-- Behind the placeholder that it looks for, a pass finds the same. -/
theorem of_self (happart : AreApart (before ++ [(placeholder, replacement)])) {s : Text}
    (h : PassFinds before placeholder (placeholder.toList ++ s)) :
    PassFinds before placeholder s := by
  have hmem : (placeholder, replacement) ∈ before ++ [(placeholder, replacement)] := by simp
  intro front behind heq
  have hlonger : fillFrom before 0 (placeholder.toList ++ s) =
      placeholder.toList ++ front ++ placeholder.toList ++ behind := by
    rw [happart.fillFrom_other, heq]
    simp
  obtain ⟨front', behind', hs, hfront, hrest⟩ := h _ behind hlonger
  rcases happart.split hmem hmem hs with ⟨rfl, -⟩ | ⟨front'', rfl, hs'⟩
  · have hempty : placeholder.toList ++ front = [] := hfront.symm
    exact absurd (List.append_eq_nil_iff.mp hempty).1 (happart.nonempty _ hmem)
  · rw [happart.fillFrom_other] at hfront
    exact ⟨front'', behind', hs', List.append_cancel_left hfront, hrest⟩

end PassFinds

/-- A text in which a placeholder stands no earlier than at a place stays as it is up to there. -/
theorem fillFrom_singleton_append {front s : Text}
    (h : ∀ ahead behind, front ++ s = ahead ++ placeholder.toList ++ behind → front <+: ahead) :
    fillFrom [(placeholder, replacement)] 0 (front ++ s) =
      front ++ fillFrom [(placeholder, replacement)] 0 s := by
  induction front with
  | nil => rfl
  | cons c front ih =>
    rw [List.cons_append, fillFrom_cons, ih, List.cons_append]
    · intro ahead behind heq
      have hahead := h (c :: ahead) behind (by rw [List.cons_append, heq]; rfl)
      exact (List.cons_prefix_cons.mp hahead).2
    · intro value hvalue hleads
      obtain rfl := List.mem_singleton.mp hvalue
      obtain ⟨behind, hbehind⟩ := hleads
      exact absurd (h [] behind hbehind.symm) (by simp)

/-- **One pass more.** If a pass finds what was declared, then filling with one placeholder more is
filling with the others first. -/
theorem fillFrom_append_singleton (h : AreApart (before ++ [(placeholder, replacement)])) {s : Text}
    (hfinds : PassFinds before placeholder s) :
    fillFrom [(placeholder, replacement)] 0 (fillFrom before 0 s) =
      fillFrom (before ++ [(placeholder, replacement)]) 0 s := by
  have hbefore : AreApart before := h.sublist (List.sublist_append_left _ _)
  have hlast : AreApart [(placeholder, replacement)] := h.sublist (List.sublist_append_right _ _)
  have hmem : (placeholder, replacement) ∈ before ++ [(placeholder, replacement)] := by simp
  induction s using placeholder_induction h.nonempty with
  | nil => rfl
  | keep c s hnone ih =>
    have hearlier : ∀ value ∈ before, ¬value.1.toList <+: c :: s := fun value hvalue =>
      hnone value (List.mem_append_left _ hvalue)
    obtain ⟨hrest, hfront⟩ := hfinds.of_keep hearlier (hnone _ hmem)
    rw [fillFrom_cons hearlier, fillFrom_cons hnone, fillFrom_cons, ih hrest]
    intro value hvalue
    rwa [List.mem_singleton.mp hvalue]
  | fill value hvalue s ih =>
    rcases List.mem_append.mp hvalue with hearlier | hlater
    · obtain ⟨hrest, hfront⟩ := PassFinds.of_fill h hearlier hfinds
      rw [hbefore.fillFrom_placeholder hearlier, h.fillFrom_placeholder hvalue,
        fillFrom_singleton_append hfront, ih hrest]
    · obtain rfl := List.mem_singleton.mp hlater
      rw [h.fillFrom_other, hlast.fillFrom_placeholder (List.mem_singleton_self _),
        h.fillFrom_placeholder hmem, ih (PassFinds.of_self h hfinds)]

/-- **Passes fill at once.** If every pass finds what was declared, then the result of all passes is
that of one. -/
theorem fillPlaceholders_eq_fillAtOnce (h : AreApart values) {s : String}
    (hfinds : FindsDeclared values s.toList) : fillPlaceholders values s = fillAtOnce values s := by
  induction values using List.reverseRecOn with
  | nil =>
    have hkept : ∀ t, fillFrom [] 0 t = t := by
      intro t
      induction t with
      | nil => rfl
      | cons c t ih => rw [fillFrom_cons (by simp), ih]
    rw [fillPlaceholders, List.foldl_nil, fillAtOnce, hkept, String.ofList_toList]
  | append_singleton before value ih =>
    obtain ⟨placeholder, replacement⟩ := value
    have hbefore := ih (h.sublist (List.sublist_append_left _ _)) hfinds.of_append
    rw [fillPlaceholders] at hbefore
    rw [fillPlaceholders, List.foldl_append, hbefore, List.foldl_cons, List.foldl_nil]
    have hnonempty := h.nonempty (placeholder, replacement) (by simp)
    refine (replaceString_eq_fillAtOnce hnonempty _).trans ?_
    rw [fillAtOnce, fillAtOnce, fillAtOnce, String.toList_ofList,
      fillFrom_append_singleton h (hfinds before placeholder replacement [] rfl)]

/-! ### Values that open no placeholder -/

/-- Whether no placeholder of a list **is begun** in front of another one: no part at the front of a
placeholder, shorter than all of it, ends where the other one starts. -/
def IsUnopened (values : List (String × String)) (s : Text) : Prop :=
  ∀ front ∈ s.inits, ∀ value ∈ values, front ++ value.1.toList <+: s →
    ∀ other ∈ values, ∀ opened ∈ other.1.toList.inits, opened <:+ front →
      opened = [] ∨ opened = other.1.toList

instance (values : List (String × String)) (s : Text) : Decidable (IsUnopened values s) :=
  inferInstanceAs (Decidable (∀ front ∈ s.inits, ∀ value ∈ values, front ++ value.1.toList <+: s →
    ∀ other ∈ values, ∀ opened ∈ other.1.toList.inits, opened <:+ front →
      opened = [] ∨ opened = other.1.toList))

/-- The order of the list does not matter. -/
theorem IsUnopened.perm {s : Text} (h : IsUnopened values s) (hperm : before.Perm values) :
    IsUnopened before s := fun front hfront value hvalue hleads other hother =>
  h front hfront value (hperm.subset hvalue) hleads other (hperm.subset hother)

/-- The same holds behind any front of the text. -/
theorem IsUnopened.of_append {front s : Text} (h : IsUnopened values (front ++ s)) :
    IsUnopened values s := by
  intro ahead hahead value hvalue hleads other hother opened hopened hsuffix
  have hlonger : front ++ ahead ∈ (front ++ s).inits :=
    (List.mem_inits _ _).mpr (List.prefix_append_right_inj front |>.mpr
      ((List.mem_inits _ _).mp hahead))
  refine h _ hlonger value hvalue ?_ other hother opened hopened
    (hsuffix.trans (List.suffix_append _ _))
  rw [List.append_assoc]
  exact (List.prefix_append_right_inj front).mpr hleads

/-- A placeholder that has been begun ends in the text itself, not in what has been filled in. -/
theorem exists_of_opened (h : AreApart before) (hsub : before ⊆ values) {other : String × String}
    (hother : other ∈ values) {s opened rest behind : Text} (hne : opened ≠ [])
    (hsplit : other.1.toList = opened ++ rest) (htext : IsUnopened values (opened ++ s))
    (hfilled : fillFrom before 0 s = rest ++ behind) :
    ∃ behind', s = rest ++ behind' ∧ fillFrom before 0 behind' = behind := by
  induction s using placeholder_induction h.nonempty generalizing opened rest with
  | nil =>
    obtain ⟨rfl, rfl⟩ := List.append_eq_nil_iff.mp hfilled.symm
    exact ⟨[], rfl, rfl⟩
  | keep c s hnone ih =>
    cases rest with
    | nil => exact ⟨c :: s, rfl, hfilled⟩
    | cons d rest =>
      rw [fillFrom_cons hnone, List.cons_append, List.cons.injEq] at hfilled
      obtain ⟨rfl, hrest⟩ := hfilled
      have hlonger : opened ++ [c] ≠ [] := by simp
      obtain ⟨behind', hs, hbehind⟩ := ih hlonger (by simp [hsplit]) (by simpa using htext) hrest
      exact ⟨behind', by rw [hs, List.cons_append], hbehind⟩
  | fill value hvalue s =>
    cases rest with
    | nil => exact ⟨_, rfl, hfilled⟩
    | cons d rest =>
      -- here a placeholder stands where the other one has been begun
      have hcases := htext opened ((List.mem_inits _ _).mpr (List.prefix_append _ _)) value
        (hsub hvalue) (by rw [← List.append_assoc]; exact List.prefix_append _ _) other hother
        opened ((List.mem_inits _ _).mpr ⟨_, hsplit.symm⟩) (List.suffix_refl _)
      rcases hcases with hempty | hfull
      · exact absurd hempty hne
      · rw [hfull] at hsplit
        exact absurd (List.self_eq_append_right.mp hsplit) (List.cons_ne_nil _ _)

/-- A placeholder that is found behind a value starts behind it, if the value does not hold the
character that the placeholder starts with. -/
theorem exists_behind_value {value rest front placeholder behind : Text} {mark : Char}
    (hmark : placeholder.head? = some mark) (hvalue : mark ∉ value)
    (h : value ++ rest = front ++ (placeholder ++ behind)) :
    ∃ front', front = value ++ front' ∧ rest = front' ++ (placeholder ++ behind) := by
  obtain ⟨name, rfl⟩ := List.head?_eq_some_iff.mp hmark
  rcases List.append_eq_append_iff.mp h with ⟨front', rfl, hrest⟩ | ⟨tail, rfl, hrest⟩
  · exact ⟨front', rfl, hrest⟩
  · cases tail with
    | nil => exact ⟨[], by simp, hrest.symm⟩
    | cons d tail =>
      rw [List.cons_append, List.cons_append, List.cons.injEq] at hrest
      obtain ⟨rfl, -⟩ := hrest
      exact absurd (List.mem_append_right _ List.mem_cons_self) hvalue

/-- **Values that open no placeholder.** If all placeholders start with a character that no value
holds, and none is begun in front of another one, then every pass finds what was declared. -/
theorem findsDeclared_of_unopened (h : AreApart values) {mark : Char}
    (hmark : ∀ value ∈ values, value.1.toList.head? = some mark)
    (hvalues : ∀ value ∈ values, mark ∉ value.2.toList) {s : Text} (htext : IsUnopened values s) :
    FindsDeclared values s := by
  intro before placeholder replacement after heq front behind hfront
  have hsublist : before.Sublist values := heq ▸ List.sublist_append_left _ _
  have hbefore : AreApart before := h.sublist hsublist
  have hmem : (placeholder, replacement) ∈ values := heq ▸ List.mem_append_right _ (by simp)
  obtain ⟨rest, hplaceholder⟩ := List.head?_eq_some_iff.mp (hmark _ hmem)
  simp only at hplaceholder
  induction s using placeholder_induction hbefore.nonempty generalizing front with
  | nil =>
    rw [fillFrom_nil, hplaceholder, List.append_assoc] at hfront
    simp at hfront
  | keep c s hnone ih =>
    rw [fillFrom_cons hnone] at hfront
    cases front with
    | nil =>
      rw [List.nil_append, hplaceholder, List.cons_append, List.cons.injEq] at hfront
      obtain ⟨rfl, hrest⟩ := hfront
      obtain ⟨behind', hs, hbehind⟩ := exists_of_opened hbefore hsublist.subset hmem
        (List.cons_ne_nil c []) hplaceholder htext hrest
      exact ⟨[], behind', by rw [hs, hplaceholder]; rfl, fillFrom_nil 0, hbehind⟩
    | cons d front =>
      rw [List.cons_append, List.cons_append, List.cons.injEq] at hfront
      obtain ⟨rfl, hfront⟩ := hfront
      obtain ⟨front', behind', hs, hfilled, hbehind⟩ :=
        ih (show IsUnopened values ([c] ++ s) from htext).of_append front hfront
      refine ⟨c :: front', behind', by rw [hs]; rfl, ?_, hbehind⟩
      rw [fillFrom_cons, hfilled]
      intro value hvalue hleads
      refine hnone value hvalue (hleads.trans ?_)
      rw [hs, List.append_assoc]
      exact List.prefix_append (c :: front') _
  | fill value hvalue s ih =>
    rw [hbefore.fillFrom_placeholder hvalue, List.append_assoc] at hfront
    obtain ⟨front', rfl, hrest⟩ :=
      exists_behind_value (hmark _ hmem) (hvalues value (hsublist.subset hvalue)) hfront
    obtain ⟨front', behind', hs, hfilled, hbehind⟩ :=
      ih htext.of_append front' (by rw [hrest, List.append_assoc])
    exact ⟨value.1.toList ++ front', behind', by rw [hs]; simp,
      by rw [hbefore.fillFrom_placeholder hvalue, hfilled], hbehind⟩

/-! ### The header -/

/-- The placeholders of a header do not depend on the build. -/
theorem placeholders_templateValues (context : BuildContext) :
    context.templateValues.map Prod.fst = ["\x7b\x7bVERSION\x7d\x7d", "\x7b\x7bBRANCH\x7d\x7d",
      "\x7b\x7bUPDATE_URL\x7d\x7d", "\x7b\x7bDOWNLOAD_URL\x7d\x7d",
      "\x7b\x7bBUILD_DATE\x7d\x7d"] := rfl

/-- The placeholders of a header are apart. -/
theorem areApart_templateValues (context : BuildContext) : AreApart context.templateValues := by
  have hnames : ∀ value ∈ context.templateValues,
      value.1 ∈ context.templateValues.map Prod.fst := fun value => List.mem_map_of_mem
  rw [placeholders_templateValues] at hnames
  refine ⟨?_, fun value hvalue => ?_, fun value hvalue other hother => ?_⟩
  · rw [placeholders_templateValues]
    decide
  · exact (by decide +kernel : ∀ name ∈ _, name.toList ≠ []) _ (hnames value hvalue)
  · exact (by decide +kernel : ∀ name ∈ _, ∀ behind ∈ _, ∀ tail ∈ name.toList.tails, tail ≠ [] →
      behind.toList <+: tail ∨ tail <+: behind.toList → tail = name.toList ∧ behind = name)
      _ (hnames value hvalue) _ (hnames other hother)

/-- Metadata are filled at once if each of their texts is. -/
theorem substitute_eq_filledAtOnce {m : Metadata} {order : List (String × String)}
    (h : ∀ line ∈ m.lines, fillPlaceholders order line.2 = fillAtOnce values line.2) :
    m.substitute order = m.filledAtOnce values := by
  have hitem : ∀ field ∈ m.fields, ∀ item ∈ field.2.items,
      fillPlaceholders order item = fillAtOnce values item := fun field hfield item hitem =>
    h (field.1, item) (List.mem_flatMap.mpr ⟨field, hfield, List.mem_map_of_mem hitem⟩)
  refine congrArg Metadata.mk (List.map_congr_left fun field hfield => ?_)
  obtain ⟨key, value⟩ := field
  refine congrArg (key, ·) ?_
  cases value with
  | scalar text =>
    exact congrArg FieldValue.scalar (hitem _ hfield text (by simp [FieldValue.items]))
  | list texts =>
    exact congrArg FieldValue.list (List.map_congr_left fun text htext => hitem _ hfield text htext)

section Header

variable {m : Metadata} {context : BuildContext} {order : List (String × String)}
  (horder : order.Perm context.templateValues)
include horder

/-- A text of a header is filled at once if no pass finds more than was declared. -/
theorem fillPlaceholders_of_perm {s : String} (hfinds : FindsDeclared order s.toList) :
    fillPlaceholders order s = fillAtOnce context.templateValues s := by
  have happart := areApart_templateValues context
  rw [fillPlaceholders_eq_fillAtOnce (happart.perm horder) hfinds, fillAtOnce_perm happart horder]

/-- **A header is filled at once**, whatever the order in which its placeholders are replaced, if no
pass finds more than was declared. -/
theorem substitute_at_once (hfinds : ∀ line ∈ m.lines, FindsDeclared order line.2.toList) :
    m.substitute order = m.filledAtOnce context.templateValues :=
  substitute_eq_filledAtOnce fun line hline => fillPlaceholders_of_perm horder (hfinds line hline)

/-- **A header is filled at once** if no value of the build holds an opening brace and no
placeholder is begun in front of another one in the texts that were declared. -/
theorem substitute_of_unopened
    (hvalues : ∀ value ∈ context.templateValues, '\x7b' ∉ value.2.toList)
    (htexts : ∀ line ∈ m.lines, IsUnopened context.templateValues line.2.toList) :
    m.substitute order = m.filledAtOnce context.templateValues := by
  have hmark : ∀ value ∈ context.templateValues, value.1.toList.head? = some '\x7b' := by
    intro value hvalue
    have hname : value.1 ∈ context.templateValues.map Prod.fst := List.mem_map_of_mem hvalue
    rw [placeholders_templateValues] at hname
    exact (by decide +kernel : ∀ name ∈ _, name.toList.head? = some '\x7b') _ hname
  refine substitute_eq_filledAtOnce fun line hline => fillPlaceholders_of_perm horder ?_
  exact findsDeclared_of_unopened ((areApart_templateValues context).perm horder)
    (fun value hvalue => hmark value (horder.subset hvalue))
    (fun value hvalue => hvalues value (horder.subset hvalue)) ((htexts line hline).perm horder)

end Header

/-- A build that knows no addresses. -/
def unpublishedContext : BuildContext :=
  { version := "1.0", branch := "\x7dmain\x7d", outputPath := .ofString "out.js",
    timestamp := ⟨0, false⟩ }

/-- Placeholders side by side, one without a value, and one that is not known. -/
def placeheldMetadata : Metadata :=
  ⟨[("version", .scalar "\x7b\x7bVERSION\x7d\x7d\x7b\x7bBRANCH\x7d\x7d"),
    ("match", .list ["a\x7b\x7bUPDATE_URL\x7d\x7db", "\x7b\x7bNAME\x7d\x7d"])]⟩

/-- The last placeholder of the list is replaced first, and the result is the same. -/
theorem substitute_at_once_of_unpublished :
    placeheldMetadata.substitute unpublishedContext.templateValues.reverse =
      ⟨[("version", .scalar "1.0\x7dmain\x7d"),
        ("match", .list ["ab", "\x7b\x7bNAME\x7d\x7d"])]⟩ := by
  have hfilled : placeheldMetadata.filledAtOnce unpublishedContext.templateValues =
      ⟨[("version", .scalar "1.0\x7dmain\x7d"),
        ("match", .list ["ab", "\x7b\x7bNAME\x7d\x7d"])]⟩ := by
    decide +kernel
  have hperm := List.reverse_perm unpublishedContext.templateValues
  have hopen : ∀ value ∈ unpublishedContext.templateValues,
      value.1.toList.head? = some '\x7b' ∧ '\x7b' ∉ value.2.toList := by decide +kernel
  have hunopened : ∀ line ∈ placeheldMetadata.lines,
      IsUnopened unpublishedContext.templateValues.reverse line.2.toList := by decide +kernel
  rw [← hfilled]
  refine substitute_at_once hperm fun line hline => ?_
  exact findsDeclared_of_unopened ((areApart_templateValues _).perm hperm)
    (fun value hvalue => (hopen value (hperm.subset hvalue)).1)
    (fun value hvalue => (hopen value (hperm.subset hvalue)).2) (hunopened line hline)

end ScriptBundle
