import ScriptBundle.Metadata.Reader
import ScriptBundle.Proofs.Module.Overlooked

/-!
# Agreement of the Two Readers

The metadata are read from an object that a module exports, and so are the exports of the module,
but by two readers that look for the word `export` each in its own way. The one that looks for the
object takes no heed of points, looks into the declarations that it comes past, and forgets a
bracket that stands where it looks for the name of a variable.

## Main definitions

* `ExportWords`: what the reader of metadata passes behind the word `export`;
* `ExportsObject`: whether an object is exported at a cursor;
* `Interface.Records`: whether an export is recorded as one of a module;
* `HidesBracket`: whether an opening bracket is forgotten;
* `SeeksAt`: how many brackets the reader of metadata counts.

## Main statements

* `exportedValue_words`: the reader of metadata passes words of one of these forms;
* `exists_of_seekObject`: the object is exported at a place that the reader comes to;
* `read_exported`: when the export of the object is one of the module.
-/

namespace ScriptBundle

/-! ### Words behind the word for an export -/

/-- Whether a token is a word that variables are declared with. -/
def Token.IsVariableWord (t : Token) : Prop :=
  ∃ name, (name = "const" ∨ name = "let" ∨ name = "var") ∧ t.kind = .identifier name

/-- With such a word an export opens. -/
theorem Token.IsVariableWord.opensExport {keyword word : Token} (h : word.IsVariableWord)
    (hkeyword : keyword.kind = .identifier "export") : OpensExport keyword word := by
  obtain ⟨name, hname, hkind⟩ := h
  refine ⟨hkeyword, name, ?_, hkind⟩
  rcases hname with rfl | rfl | rfl <;> decide

/-- A declaration starts with such a word. -/
theorem Token.IsVariableWord.startsDeclaration {word : Token} (h : word.IsVariableWord) :
    word.startsDeclaration = true := by
  obtain ⟨name, hname, hkind⟩ := h
  rw [Token.startsDeclaration, hkind]
  rcases hname with rfl | rfl | rfl <;> rfl

theorem TokenKind.exists_of_name? {kind : TokenKind} (h : kind.name?.isSome = true) :
    ∃ name, kind = .identifier name := by
  cases kind with
  | identifier name => exact ⟨name, rfl⟩
  | _ => simp [name?] at h

/-- What the reader of metadata **passes** behind the word `export`, and which export it is if it
passes up to a value. -/
inductive ExportWords : List Token → Option Export → Prop where
  | defaultValue {word : Token} (hword : word.kind = .identifier "default") :
      ExportWords [word] (some .defaultValue)
  | assigned {word bound equals : Token} {name : String} (hword : word.IsVariableWord)
      (hname : bound.kind = .identifier name) (hequals : equals.kind = .punctuator '=') :
      ExportWords [word, bound, equals] (some (.named name))
  | unassigned {word bound : Token} (hword : word.IsVariableWord) : ExportWords [word, bound] none
  | unfinished {word : Token} (hword : word.IsVariableWord) : ExportWords [word] none
  | nothing : ExportWords [] none

/-- The reader of metadata passes words of one of these forms. -/
theorem exportedValue_words (c : Cursor) : ∃ passed found, ExportWords passed found ∧
    c.Passes passed (exportedValue c).2 ∧ (exportedValue c).1 = found.isSome := by
  unfold exportedValue
  split
  · next a ha => exact ⟨_, _, .defaultValue (eatName_kind ha), eatName_passes ha, rfl⟩
  · split
    · exact ⟨[], _, .nothing, .refl c, rfl⟩
    · next word hword =>
      obtain ⟨hpasses, haccept⟩ := eat_passes hword
      have hvariable : word.value.IsVariableWord := by
        simpa [Token.IsVariableWord, Token.isName, or_assoc] using haccept
      split
      · exact ⟨_, _, .unfinished hvariable, hpasses, rfl⟩
      · next bound hbound =>
        have hboth := hpasses.trans (bump_passes hbound)
        split
        · next hname =>
          obtain ⟨name, hkind⟩ := TokenKind.exists_of_name? hname
          split
          · next equals hequals =>
            exact ⟨_, _, .assigned hvariable hkind (eatPunctuator_kind hequals),
              hboth.trans (eatPunctuator_passes hequals), rfl⟩
          · exact ⟨_, _, .unassigned hvariable, hboth, rfl⟩
        · exact ⟨_, _, .unassigned hvariable, hboth, rfl⟩

namespace ExportWords

variable {passed : List Token} {found : Option Export}

/-- Among these words there is no opening bracket, unless it stands where the name of a variable
should stand. -/
theorem opening (h : ExportWords passed found) : (∀ t ∈ passed, t.kind.isOpening = false) ∨
    ∃ word opening, passed = [word, opening] ∧ word.IsVariableWord ∧
      opening.kind.isOpening = true := by
  have hplain {word : Token} (hword : word.IsVariableWord) : word.kind.isOpening = false := by
    obtain ⟨name, -, hkind⟩ := hword
    rw [hkind]
    rfl
  cases h with
  | defaultValue hword => exact .inl (by simp [hword, TokenKind.isOpening])
  | assigned hword hname hequals =>
    refine .inl (List.forall_mem_cons.mpr ⟨hplain hword, ?_⟩)
    simp [hname, hequals, TokenKind.isOpening]
  | @unassigned word bound hword =>
    cases hopening : bound.kind.isOpening with
    | true => exact .inr ⟨word, bound, rfl, hword, hopening⟩
    | false => exact .inl (by simp [hplain hword, hopening])
  | unfinished hword => exact .inl (by simp [hplain hword])
  | nothing => exact .inl (by simp)

end ExportWords

/-- Of one token nothing is left behind a front of it. -/
theorem eq_nil_of_singleton {t : α} {front back : List α} (h : [t] = front ++ back)
    (hfront : front ≠ []) : back = [] := by
  rcases List.singleton_eq_append_iff.mp h with ⟨rfl, -⟩ | ⟨-, rfl⟩
  · exact absurd rfl hfront
  · rfl

/-- Without an opening bracket no bracket is open behind tokens. -/
theorem depthBehind_eq_zero {ts : List Token} (h : ∀ t ∈ ts, t.kind.isOpening = false) :
    depthBehind 0 ts = 0 := by
  induction ts with
  | nil => rfl
  | cons t ts ih =>
    obtain ⟨ht, hts⟩ := List.forall_mem_cons.mp h
    have hfirst : depthAfter 0 t.kind = 0 := by simp [depthAfter, ht]
    change depthBehind (depthAfter 0 t.kind) ts = 0
    rw [hfirst, ih hts]

theorem depthAfter_mono {depth depth' : Nat} (h : depth ≤ depth') (kind : TokenKind) :
    depthAfter depth kind ≤ depthAfter depth' kind := by
  unfold depthAfter
  split
  · omega
  · split <;> omega

/-! ### Where the object is looked for -/

/-- Whether an object is **exported** at a cursor, which stands in front of the word `export`. -/
structure ExportsObject (k : Cursor) (found : Export) (object : Cursor) : Prop where
  words : ∃ keyword passed, keyword.kind = .identifier "export" ∧ ExportWords passed (some found) ∧
    k.Passes (keyword :: passed) object
  object : object.atPunctuator '\x7b' = true

/-- Whether the reader of metadata **forgets a bracket** among tokens at the front of a source: one
that it passes with the words behind an overlooked word `export`. -/
def HidesBracket (source : Text) (front : List Token) : Prop :=
  ∃ (before behind : List Token) (keyword word opening : Token) (k : Cursor),
    front = before ++ keyword :: word :: opening :: behind ∧
      (Cursor.ofSource source).Passes before k ∧ IsOverlooked source k ∧
      keyword.kind = .identifier "export" ∧ word.IsVariableWord ∧ opening.kind.isOpening = true

theorem HidesBracket.append {source : Text} {front : List Token} (h : HidesBracket source front)
    (others : List Token) : HidesBracket source (front ++ others) := by
  obtain ⟨before, behind, keyword, word, opening, k, rfl, hk⟩ := h
  exact ⟨before, behind ++ others, keyword, word, opening, k, by simp, hk⟩

/-- Whether the reader of metadata comes to a place **with a count** of open brackets: it counts no
more brackets than are open there, and where it counts fewer it is in a declaration that the reader
of the module passes over, or has forgotten a bracket. -/
structure SeeksAt (source : Text) (depth : Nat) (front : List Token) (c : Cursor) : Prop where
  passes : (Cursor.ofSource source).Passes front c
  le : depth ≤ depthBehind 0 front
  hidden : depth < depthBehind 0 front → c.rest ≠ [] →
    PassesOver 0 (.ofSource source) c ∨ HidesBracket source front

namespace SeeksAt

variable {source : Text} {depth : Nat} {front : List Token} {c : Cursor}

/-- What the reader of metadata passes with the same count as that of the brackets. -/
theorem behind (h : SeeksAt source depth front c) {passed : List Token} {c' : Cursor}
    (hpasses : c.Passes passed c') {depth' : Nat}
    (hle : depth' ≤ depthBehind 0 (front ++ passed))
    (hsame : depth = depthBehind 0 front → depth' < depthBehind 0 (front ++ passed) → c'.rest ≠ [] →
      PassesOver 0 (.ofSource source) c' ∨ HidesBracket source (front ++ passed))
    (hend : ∀ kept back, passed = kept ++ back → kept ≠ [] → depthBehind 0 back ≤ depth') :
    SeeksAt source depth' (front ++ passed) c' where
  passes := h.passes.trans hpasses
  le := hle
  hidden hlt hne := by
    rcases Nat.eq_or_lt_of_le h.le with heq | hless
    · exact hsame heq hlt hne
    · have hne' : c.rest ≠ [] := by
        rw [hpasses.rest]
        simp [hne]
      rcases h.hidden hless hne' with hover | hhides
      · rcases hover.behind h.passes hpasses with
          hover | hnone | ⟨kept, back, hpassed, hkept, hdepth⟩
        · exact .inl hover
        · exact absurd hnone hne
        · have hback := hend kept back hpassed hkept
          omega
      · exact .inr (hhides.append passed)

/-- What a token makes of the count. -/
theorem token (h : SeeksAt source depth front c) {a : Advance c Token} (hbump : c.bump = some a) :
    SeeksAt source (depthAfter depth a.value.kind) (front ++ [a.value]) a.cursor := by
  have hdepth : depthBehind 0 (front ++ [a.value]) =
      depthAfter (depthBehind 0 front) a.value.kind := depthBehind_append 0 front [a.value]
  refine h.behind (bump_passes hbump) ?_ (fun heq hlt => ?_) fun kept back hpassed hkept => ?_
  · rw [hdepth]
    exact depthAfter_mono h.le _
  · rw [hdepth, heq] at hlt
    exact absurd hlt (Nat.lt_irrefl _)
  · rw [eq_nil_of_singleton hpassed hkept]
    exact Nat.zero_le _

/-- Words without an opening bracket leave the count at zero. -/
theorem plain (h : SeeksAt source 0 front c) {passed : List Token} {c' : Cursor}
    (hpasses : c.Passes passed c') (hplain : ∀ t ∈ passed, t.kind.isOpening = false) :
    SeeksAt source 0 (front ++ passed) c' := by
  refine h.behind hpasses (Nat.zero_le _) (fun heq hlt => ?_) fun kept back hpassed _ => ?_
  · rw [depthBehind_append, ← heq, depthBehind_eq_zero hplain] at hlt
    exact absurd hlt (Nat.lt_irrefl _)
  · refine Nat.le_of_eq (depthBehind_eq_zero fun t ht => hplain t ?_)
    rw [hpassed]
    exact List.mem_append_right _ ht

end SeeksAt

section

variable {source : Text} {found : Interface} (hfound : Interface.read source = .ok found)
  {front : List Token}
include hfound

/-- A declaration of variables that is not overlooked passes over the token behind its first
word. -/
theorem passesOver_of_variables {k : Cursor} {keyword word next : Token} {rest : List Token}
    (hpasses : (Cursor.ofSource source).Passes front k)
    (hrest : k.rest = keyword :: word :: next :: rest)
    (hkeyword : keyword.kind = .identifier "export") (hword : word.IsVariableWord)
    (hnot : ¬IsOverlooked source k) (hdepth : depthBehind 0 front = 0) :
    PassesOver 0 (.ofSource source) ⟨some word, next :: rest⟩ := by
  obtain ⟨hreads, a, hstatement⟩ := exists_statement_of_not_isOverlooked hfound hpasses hrest
    (hword.opensExport hkeyword) hnot hdepth
  obtain ⟨-, hmember, hcut⟩ := moduleStatement_cut hstatement
  obtain ⟨passed, hpassed⟩ := hcut.exists_passes
  have hfaces : k.Faces (.identifier "export" :: (word :: next :: rest).map (·.kind)) := by
    simp [Cursor.Faces, hrest, hkeyword]
  have hexport := hstatement
  rw [moduleStatement_export hfaces hmember] at hexport
  obtain ⟨previous, ts⟩ := k
  obtain rfl : ts = keyword :: word :: next :: rest := hrest
  obtain ⟨names, -, hcursor⟩ := (exportStatement_variables hword).2 a hexport
  have hlength : a.cursor.rest.length ≤ rest.length := by
    rw [hcursor]
    exact Nat.le_of_lt_succ names.shorter
  have htokens : passed ++ a.cursor.rest = [keyword, word] ++ next :: rest := hpassed.rest.symm
  obtain ⟨back, rfl, hback⟩ := exists_of_append_eq htokens hlength
  have hdeclaration : IsDeclaration ⟨previous, keyword :: word :: next :: rest⟩ a word
      ([] ++ next :: back) :=
    ⟨hstatement, ⟨keyword, by simp [Token.isName, hkeyword], hpassed.rest⟩, hword.startsDeclaration⟩
  exact ⟨_, a, word, next, [], back, hreads, hdeclaration, congrArg (next :: ·) hback⟩

/-- An opening bracket that is passed with the words behind `export` leaves the count at zero. -/
theorem SeeksAt.bracket {c c' : Cursor} (h : SeeksAt source 0 front c)
    {keyword word opening : Token}
    (hpasses : c.Passes [keyword, word, opening] c')
    (hkeyword : keyword.kind = .identifier "export")
    (hword : word.IsVariableWord) (hopening : opening.kind.isOpening = true) :
    SeeksAt source 0 (front ++ [keyword, word, opening]) c' where
  passes := h.passes.trans hpasses
  le := Nat.zero_le _
  hidden hlt hne := by
    have hrest : c.rest = keyword :: word :: opening :: c'.rest := hpasses.rest
    -- An overlooked word hides the bracket. Any other one starts a declaration, which passes
    -- over it.
    by_cases hover : IsOverlooked source c
    · exact .inr ⟨front, [], keyword, word, opening, c, rfl, h.passes, hover, hkeyword, hword,
        hopening⟩
    · rcases Nat.eq_zero_or_pos (depthBehind 0 front) with hzero | hpos
      · have hbetween : c.Passes [keyword, word] ⟨some word, opening :: c'.rest⟩ := ⟨hrest, rfl⟩
        have hall : c.Passes ([keyword, word] ++ [opening]) c' := hpasses
        have hlast : (⟨some word, opening :: c'.rest⟩ : Cursor).Passes [opening] c' :=
          hall.of_append hbetween
        have hdeclared := passesOver_of_variables hfound h.passes hrest hkeyword hword hover hzero
        rcases hdeclared.behind (h.passes.trans hbetween) hlast with
          hbehind | hend | ⟨kept, back, hpassed, hkept, hdepth⟩
        · exact .inl hbehind
        · exact absurd hend hne
        · rw [eq_nil_of_singleton hpassed hkept, List.append_assoc] at hdepth
          exact absurd hdepth (Nat.ne_of_gt hlt)
      · rcases h.hidden hpos (by simp [hrest]) with hpassed | hhides
        · exact absurd (.inr hpassed) hover
        · exact .inr (hhides.append _)

/-- What the words behind `export` make of the count: it stays at zero. -/
theorem SeeksAt.words {c : Cursor} (h : SeeksAt source 0 front c) {a : Advance c Token}
    (hbump : c.bump = some a) (hexport : a.value.kind = .identifier "export") :
    ∃ others, SeeksAt source 0 others (exportedValue a.cursor).2 := by
  obtain ⟨passed, value, hwords, hpasses, -⟩ := exportedValue_words a.cursor
  have hall := (bump_passes hbump).trans hpasses
  refine ⟨front ++ a.value :: passed, ?_⟩
  rcases hwords.opening with hplain | ⟨word, opening, rfl, hword, hopening⟩
  · refine h.plain hall (List.forall_mem_cons.mpr ⟨?_, hplain⟩)
    rw [hexport]
    rfl
  · exact h.bracket hfound hall hexport hword hopening

/-- The object that is found is exported at a place that the reader of metadata comes to with a
count of zero. -/
theorem exists_of_seekObject {depth : Nat} {notObject : Option Nat} {c object : Cursor}
    (h : seekObject depth notObject c = .ok object) (hseeks : SeeksAt source depth front c) :
    ∃ others k value, ExportsObject k value object ∧ SeeksAt source 0 others k := by
  fun_induction seekObject depth notObject c generalizing front with
  | case1 => simp at h
  | case2 => simp at h
  | case3 depth notObject c a hbump _ hexport _ _ hvalue =>
    rename_i hobject
    obtain ⟨rfl, hname⟩ := hexport
    obtain rfl := Except.ok.inj h
    obtain ⟨passed, exported, hwords, hpasses, hsome⟩ := exportedValue_words a.cursor
    obtain ⟨exported, rfl⟩ := Option.isSome_iff_exists.mp (hsome.symm.trans hvalue)
    exact ⟨front, c, exported, ⟨⟨a.value, passed, Token.kind_of_isName hname, hwords,
      (bump_passes hbump).trans hpasses⟩, hobject⟩, hseeks⟩
  -- The value is no object, or there is none.
  | case4 depth notObject c a hbump _ hexport | case5 depth notObject c a hbump _ hexport =>
    rename_i ih
    obtain ⟨rfl, hname⟩ := hexport
    obtain ⟨others, hothers⟩ := hseeks.words hfound hbump (Token.kind_of_isName hname)
    exact ih h hothers
  | case6 depth notObject c a hbump _ hexport ih => exact ih h (hseeks.token hbump)

end

/-! ### What is recorded -/

/-- A declaration of variables whose first pattern is a name declares it. -/
theorem mem_declaratorNames {previous : Option Token} {t : Token} {rest : List Token}
    {name : String}
    (hname : t.kind = .identifier name) {a : Advance ⟨previous, t :: rest⟩ (List String)}
    (h : declaratorNames ⟨previous, t :: rest⟩ = .ok a) : name ∈ a.value := by
  have hpattern : bindingPattern ⟨previous, t :: rest⟩ =
      .ok ⟨[name], ⟨some t, rest⟩, Nat.lt_succ_self _⟩ := by
    rw [bindingPattern]
    simp only [Cursor.bump, hname]
    rfl
  rw [declaratorNames, hpattern] at h
  simp only [Advance.moveTo_cursor] at h
  split at h
  · obtain rfl := Except.ok.inj h
    exact List.mem_singleton_self name
  · obtain ⟨others, -, rfl⟩ := map_eq_ok_iff.mp h
    exact List.mem_append_left _ (List.mem_singleton_self name)

namespace ExportsObject

variable {k object : Cursor} {exported : Export}

/-- An export of an object opens with two words. -/
theorem opensExport (h : ExportsObject k exported object) :
    ∃ keyword word rest, k.rest = keyword :: word :: rest ∧ OpensExport keyword word := by
  obtain ⟨keyword, passed, hkeyword, hwords, hpasses⟩ := h.words
  cases hwords with
  | @defaultValue word hword =>
    exact ⟨keyword, word, _, hpasses.rest, hkeyword, "default", List.mem_cons_self, hword⟩
  | @assigned word bound equals _ hword =>
    exact ⟨keyword, word, _, hpasses.rest, hword.opensExport hkeyword⟩

/-- The statement there declares the export. -/
theorem mem_exports (h : ExportsObject k exported object) {a : Advance k Interface}
    (hstatement : moduleStatement 0 k = .ok (some a)) : exported ∈ a.value.exports := by
  obtain ⟨keyword, passed, hkeyword, hwords, hpasses⟩ := h.words
  obtain ⟨-, hmember, -⟩ := moduleStatement_cut hstatement
  have hfaces : k.Faces (.identifier "export" :: (passed ++ object.rest).map (·.kind)) := by
    simp [Cursor.Faces, hpasses.rest, hkeyword]
  rw [moduleStatement_export hfaces hmember] at hstatement
  cases hwords with
  | defaultValue hword =>
    obtain ⟨value, others, hobject⟩ : ∃ value others, object.rest = value :: others := by
      have hbrace := h.object
      cases hrest : object.rest with
      | nil => simp [Cursor.atPunctuator, Cursor.peek, hrest] at hbrace
      | cons value others => exact ⟨value, others, rfl⟩
    rw [hobject, List.singleton_append, List.map_cons, hword, List.map_cons] at hfaces
    obtain ⟨a', hread, -, hexports, -⟩ := exportDefault_faces hfaces
    obtain rfl := Option.some.inj (Except.ok.inj (hread.symm.trans hstatement))
    simp [hexports]
  | @assigned word bound equals name hword hname hequals =>
    obtain ⟨previous, ts⟩ := k
    obtain rfl : ts = keyword :: word :: bound :: equals :: object.rest := hpasses.rest
    obtain ⟨hread, hback⟩ := @exportStatement_variables previous keyword word
      (bound :: equals :: object.rest) hword
    obtain ⟨names, hnames, -⟩ := hback a hstatement
    obtain ⟨a', ha', hvalue, -⟩ := hread names hnames
    obtain rfl := Option.some.inj (Except.ok.inj (ha'.symm.trans hstatement))
    rw [hvalue]
    exact List.mem_map_of_mem (mem_declaratorNames hname hnames)

end ExportsObject

/-- Whether the export at a cursor is **recorded** as one of a module: it is among the exports, and
the word `export` there is taken out. -/
structure Interface.Records (found : Interface) (k : Cursor) (exported : Export) : Prop where
  mem : exported ∈ found.exports
  edit : ∃ edit ∈ found.edits, ∃ keyword ∈ k.peek, edit.span.start = keyword.start

/-- **When the two readers agree.** The object that metadata are read from is exported at some place
of the source, as the default value or as the value of a variable. That export is recorded as one of
the module exactly if the word `export` there is not overlooked and no bracket is open in front of
it. A bracket can be open there only in a declaration that the reader of the module passes over, or
behind another overlooked word, with which the reader of metadata forgets a bracket. -/
theorem read_exported {source : Text} {found : Interface} {metadata : Metadata}
    (hfound : Interface.read source = .ok found) (hmetadata : Metadata.read source = .ok metadata) :
    ∃ front k exported object, seekObject 0 none (.ofSource source) = .ok object ∧
      (Cursor.ofSource source).Passes front k ∧ ExportsObject k exported object ∧
      (found.Records k exported ↔ ¬IsOverlooked source k ∧ depthBehind 0 front = 0) ∧
      (depthBehind 0 front ≠ 0 → IsOverlooked source k ∨ HidesBracket source front) := by
  cases hseek : seekObject 0 none (.ofSource source) with
  | error e => simp [Metadata.read, MetadataReading.ofSource, hseek, MetadataReading.result]
      at hmetadata
  | ok object =>
    have hstart : SeeksAt source 0 [] (.ofSource source) :=
      ⟨.refl _, Nat.le_refl _, fun hlt => absurd hlt (Nat.lt_irrefl _)⟩
    obtain ⟨front, k, exported, hexports, hseeks⟩ := exists_of_seekObject hfound hseek hstart
    obtain ⟨keyword, word, rest, hrest, hopens⟩ := hexports.opensExport
    have hpeek : k.peek = some keyword := by rw [Cursor.peek, hrest, List.head?_cons]
    have hedit := exists_edit_iff_not_isOverlooked hfound hseeks.passes hrest hopens
    refine ⟨front, k, exported, object, rfl, hseeks.passes, hexports, ⟨fun hrecords => ?_, ?_⟩, ?_⟩
    · obtain ⟨edit, hmem, t, ht, hstart⟩ := hrecords.edit
      obtain rfl := Option.some.inj (hpeek.symm.trans ht)
      exact hedit.mp ⟨edit, hmem, hstart⟩
    · rintro ⟨hnot, hdepth⟩
      obtain ⟨edit, hmem, hstart⟩ := hedit.mpr ⟨hnot, hdepth⟩
      obtain ⟨hreads, a, hstatement⟩ :=
        exists_statement_of_not_isOverlooked hfound hseeks.passes hrest hopens hnot hdepth
      have hdeclared := (hreads.mem_found hfound hstatement).2 exported
        (hexports.mem_exports hstatement)
      exact ⟨hdeclared, edit, hmem, keyword, hpeek, hstart⟩
    · intro hdepth
      have hne : k.rest ≠ [] := by simp [hrest]
      exact (hseeks.hidden (Nat.pos_of_ne_zero hdepth) hne).imp_left .inr

/-- A source in which a word `export` in front of a declaration is the name of a member. -/
def memberExportSource : Text := "x.export\nconst a = \x7b name: 'x' \x7d".toList

/-- The metadata are read from that declaration, which exports nothing. -/
theorem read_exported_of_member :
    ∃ found metadata, Interface.read memberExportSource = .ok found ∧ found.exports = [] ∧
      Metadata.read memberExportSource = .ok metadata ∧
      ∃ front k exported object, seekObject 0 none (.ofSource memberExportSource) = .ok object ∧
        (Cursor.ofSource memberExportSource).Passes front k ∧ ExportsObject k exported object ∧
        ¬found.Records k exported ∧
        (IsOverlooked memberExportSource k ∨ HidesBracket memberExportSource front) := by
  have hfound : Interface.read memberExportSource = .ok .empty := by
    simp only [Interface.read, Cursor.ofSource, tokenize_eq_upTo]
    cbv
  have hmetadata : Metadata.read memberExportSource = .ok (.ofEntries [("name", .scalar "x")]) := by
    simp only [Metadata.read, MetadataReading.ofSource, Cursor.ofSource, tokenize_eq_upTo]
    cbv
  obtain ⟨front, k, exported, object, hseek, hpasses, hexports, hrecords, hhidden⟩ :=
    read_exported hfound hmetadata
  have hnot : ¬Interface.empty.Records k exported := fun h => List.not_mem_nil h.mem
  refine ⟨_, _, hfound, rfl, hmetadata, front, k, exported, object, hseek, hpasses, hexports, hnot,
    ?_⟩
  by_cases hover : IsOverlooked memberExportSource k
  · exact .inl hover
  · exact hhidden fun hdepth => hnot (hrecords.mpr ⟨hover, hdepth⟩)

end ScriptBundle
