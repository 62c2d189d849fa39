import ScriptBundle.Proofs.Module.Declarations
import ScriptBundle.Proofs.Module.Remaining
import ScriptBundle.Proofs.Token.Tiling

/-!
# Moved Tokens

Tokens that stand some bytes further to the right have the same module syntax, and the edits that
take it out stand as many bytes further to the right. So a line that is read by no one can be taken
away in front of a source before or after it is stripped.

## Main definitions

* `Token.moved`, `Cursor.moved`, `Edit.moved`: tokens, cursors and edits further to the right;
* `statementSpan?`: where the edit of a statement is.

## Main statements

* `interfaceFrom_moved`: moved tokens have moved edits;
* `strip_behind_hashbang`: a stripped source starts with the line that is read by no one.
-/

namespace ScriptBundle

/-- A token that stands `d` bytes further to the right. -/
def Token.moved (d : Nat) (t : Token) : Token := { t with start := d + t.start }

/-- A cursor whose tokens stand `d` bytes further to the right. -/
def Cursor.moved (d : Nat) (c : Cursor) : Cursor :=
  ⟨c.previous.map (Token.moved d), c.rest.map (Token.moved d)⟩

/-- A span `d` bytes further to the right. -/
def Span.moved (d : Nat) (span : Span) : Span := ⟨d + span.start, d + span.stop⟩

/-- An edit `d` bytes further to the right. -/
def Edit.moved (d : Nat) (edit : Edit) : Edit := ⟨edit.span.moved d, edit.replacement⟩

variable {d : Nat}

@[simp] theorem Token.moved_start (t : Token) : (t.moved d).start = d + t.start := rfl

@[simp] theorem Token.moved_stop (t : Token) : (t.moved d).stop = d + t.stop :=
  Nat.add_assoc d t.start (Text.size t.text)

@[simp] theorem Token.moved_isName (t : Token) (name : String) :
    (t.moved d).isName name = t.isName name := rfl

@[simp] theorem Token.moved_isPunctuator (t : Token) (char : Char) :
    (t.moved d).isPunctuator char = t.isPunctuator char := rfl

/-- Lexemes that are placed further to the right. -/
theorem Token.place_moved (offset : Nat) (ls : List Lexeme) :
    Token.place (d + offset) ls = (Token.place offset ls).map (Token.moved d) := by
  induction ls generalizing offset with
  | nil => rfl
  | cons l ls ih =>
    have hbehind := ih (offset + Text.size l.gap + Text.size l.text)
    simp only [← Nat.add_assoc] at hbehind
    rw [Token.place, Token.place, List.map_cons, hbehind]
    exact congrArg (· :: _) (by simp only [Token.moved, Nat.add_assoc])

/-- Without their places moved tokens are the same. -/
@[simp] theorem Cursor.bare_moved (c : Cursor) : (c.moved d).bare = c.bare := by
  rw [Cursor.moved, Cursor.bare, Option.map_map, List.map_map]
  rfl

/-! ### One statement -/

/-- Where the edit of a statement that passes the tokens of `run` is. An import or an export list is
taken out up to its end, and other exports up to the next token that is kept. -/
def statementSpan? (run behind : List Token) : Option Span :=
  match run with
  | [] => none
  | first :: others =>
    if first.isName "import" || others.head?.any (·.isPunctuator '\x7b') then
      some ⟨first.start, (others.getLastD first).stop⟩
    else
      (if others.head?.any (·.isName "default") then behind else others).head?.map
        fun next => ⟨first.start, next.start⟩

/-- Moved tokens have a moved edit. -/
theorem statementSpan?_moved (run behind : List Token) :
    statementSpan? (run.map (Token.moved d)) (behind.map (Token.moved d)) =
      (statementSpan? run behind).map (Span.moved d) := by
  cases run with
  | nil => rfl
  | cons first others =>
    have hhead : ∀ p : Token → Bool, (∀ t : Token, p (t.moved d) = p t) →
        (others.map (Token.moved d)).head?.any p = others.head?.any p := by
      intro p hp
      cases others <;> simp [hp]
    have hlast : (others.map (Token.moved d)).getLastD (first.moved d) =
        (others.getLastD first).moved d := by
      rw [List.getLastD_eq_getLast?, List.getLastD_eq_getLast?, List.getLast?_map]
      cases others.getLast? <;> rfl
    rw [List.map_cons, statementSpan?, statementSpan?, hhead _ fun _ => rfl, hhead _ fun _ => rfl,
      Token.moved_isName, hlast]
    split
    · simp [Span.moved]
    · split <;> rw [List.head?_map, Option.map_map, Option.map_map] <;> rfl

/-- The edit of a statement is where its tokens say. -/
theorem StatementCut.exists_span {c behind : Cursor} {found : Interface}
    (h : StatementCut c found behind) : ∃ run, c.Passes run behind ∧
      (found.edits = [] ∨ ∃ span replacement, statementSpan? run behind.rest = some span ∧
        found.edits = [⟨span, replacement⟩]) := by
  have hexport : ∀ {t : Token}, t.isName "export" = true → t.isName "import" = false :=
    fun ht => Bool.eq_false_iff.mpr fun h => absurd (Token.eq_of_isName ht h) (by decide)
  cases h with
  | dynamic passes word next empty => exact ⟨_, passes, .inl (by rw [empty]; rfl)⟩
  | @whole first others passes keyword form member edits matching =>
    refine ⟨_, passes, .inr ⟨_, _, ?_, edits⟩⟩
    rw [statementSpan?, if_pos]
    simpa using form
  | @defaultValue first second value passes keyword word next edits =>
    refine ⟨_, passes, .inr ⟨⟨first.start, value.start⟩, _, ?_, edits⟩⟩
    have hbrace : second.isPunctuator '\x7b' = false := by
      rw [Token.isName, beq_iff_eq] at word
      simp [Token.isPunctuator, word]
    have hnext : behind.rest.head? = some value := next
    simp [statementSpan?, hexport keyword, hbrace, word, hnext]
  | @declaration first next between kept names passes closes keyword word among declared =>
    refine ⟨_, passes.trans closes.toPasses, .inr ⟨⟨first.start, next.start⟩, _, ?_,
      by rw [declared]; rfl⟩⟩
    obtain ⟨name, hname, hkind⟩ := Token.kind_of_startsDeclaration word
    have hbrace : next.isPunctuator '\x7b' = false := by simp [Token.isPunctuator, hkind]
    have hdefault : next.isName "default" = false := by
      have hne : name ≠ "default" := by
        rintro rfl
        exact absurd hname (by decide)
      simpa [Token.isName, hkind] using hne
    simp [statementSpan?, hexport keyword, hbrace, hdefault]

/-- Moved tokens are passed alike. -/
theorem Cursor.Passes.moved {c behind behind' : Cursor} {run run' : List Token}
    (h : c.Passes run behind) (h' : (c.moved d).Passes run' behind')
    (hbare : behind'.bare = behind.bare) :
    run' = run.map (Token.moved d) ∧ behind' = behind.moved d := by
  have hlength : behind'.rest.length = behind.rest.length := by
    simpa [Cursor.bare] using congrArg (·.rest.length) hbare
  have hrest : run.map (Token.moved d) ++ behind.rest.map (Token.moved d) =
      run' ++ behind'.rest := by
    rw [← List.map_append, ← h.rest, ← h'.rest]
    rfl
  obtain ⟨hrun, hbehind⟩ := List.append_inj' hrest (by rw [List.length_map, hlength])
  refine ⟨hrun.symm, ?_⟩
  obtain ⟨previous', rest'⟩ := behind'
  obtain rfl : _ = previous' := h'.previous.symm
  obtain rfl : _ = rest' := hbehind
  rw [← hrun, List.getLast?_map]
  refine congrArg (Cursor.mk · _) ?_
  rw [h.previous]
  cases run.getLast? <;> rfl

/-- Cursors that are the same without places find the same statements. -/
theorem moduleStatement_of_bare_eq {depth : Nat} {c c' : Cursor} (hbare : c'.bare = c.bare)
    {found : Option (Advance c Interface)} (h : moduleStatement depth c = .ok found) :
    ∃ found', moduleStatement depth c' = .ok found' ∧
      found'.map (fun a => (a.value.bare, a.cursor.bare)) =
        found.map (fun a => (a.value.bare, a.cursor.bare)) := by
  have houtcome : ∀ {c : Cursor},
      (moduleStatement depth c).toOption.map (Option.map fun a => (a.value.bare, a.cursor.bare)) =
        (moduleStatement depth c.bare).toOption.map (Option.map fun a => (a.value, a.cursor)) := by
    intro c
    rw [moduleStatement_bare]
    rcases moduleStatement depth c with e | _ | a <;> rfl
  have hsame := (houtcome (c := c')).trans (hbare ▸ (houtcome (c := c)).symm)
  rw [h] at hsame
  cases hfound : moduleStatement depth c' with
  | error e => simp [hfound, Except.toOption] at hsame
  | ok found' => exact ⟨found', rfl, by simpa [hfound, Except.toOption] using hsame⟩

/-- A moved statement has moved edits, and moved tokens stand behind it. -/
theorem moduleStatement_moved {depth : Nat} {c : Cursor} {a : Advance c Interface}
    (h : moduleStatement depth c = .ok (some a)) :
    ∃ a', moduleStatement depth (c.moved d) = .ok (some a') ∧ a'.cursor = a.cursor.moved d ∧
      a'.value.edits = a.value.edits.map (Edit.moved d) := by
  obtain ⟨found', hfound, hsame⟩ := moduleStatement_of_bare_eq (c.bare_moved (d := d)) h
  cases found' with
  | none => simp at hsame
  | some a' =>
    obtain ⟨hvalue, hcursor⟩ : a'.value.bare = a.value.bare ∧ a'.cursor.bare = a.cursor.bare := by
      simpa using hsame
    obtain ⟨-, -, hcut⟩ := moduleStatement_cut h
    obtain ⟨-, -, hcut'⟩ := moduleStatement_cut hfound
    obtain ⟨run, hpasses, hspan⟩ := hcut.exists_span
    obtain ⟨run', hpasses', hspan'⟩ := hcut'.exists_span
    obtain ⟨rfl, hbehind⟩ := hpasses.moved hpasses' hcursor
    refine ⟨a', hfound, hbehind, ?_⟩
    have hedits : a'.value.edits.map Edit.replacement = a.value.edits.map Edit.replacement := by
      have := congrArg (fun found : Interface => found.edits.map Edit.replacement) hvalue
      simpa [Interface.bare, Function.comp_def] using this
    rw [hbehind] at hspan'
    rcases hspan with hnone | ⟨span, replacement, hspan, hone⟩ <;>
      rcases hspan' with hnone' | ⟨span', replacement', hspan', hone'⟩
    · rw [hnone, hnone', List.map_nil]
    · simp [hnone, hone'] at hedits
    · simp [hnone', hone] at hedits
    · rw [show (a.cursor.moved d).rest = a.cursor.rest.map (Token.moved d) from rfl,
        statementSpan?_moved, hspan] at hspan'
      obtain rfl : span.moved d = span' := by simpa using hspan'
      obtain rfl : replacement' = replacement := by simpa [hone, hone'] using hedits
      rw [hone, hone']
      rfl

/-! ### Whole modules -/

/-- A step among moved tokens. -/
theorem bump_moved {c : Cursor} {a : Advance c Token} (h : c.bump = some a) :
    ∃ a', (c.moved d).bump = some a' ∧ a'.value = a.value.moved d ∧
      a'.cursor = a.cursor.moved d := by
  obtain ⟨previous, rest⟩ := c
  cases rest with
  | nil => simp [Cursor.bump] at h
  | cons t rest =>
    obtain rfl : _ = a := by simpa [Cursor.bump] using h
    exact ⟨_, rfl, rfl, rfl⟩

/-- **Moved tokens have moved edits.** -/
theorem interfaceFrom_moved {depth : Nat} {c : Cursor} {found : Interface}
    (h : interfaceFrom depth c = .ok found) :
    ∃ found', interfaceFrom depth (c.moved d) = .ok found' ∧
      found'.edits = found.edits.map (Edit.moved d) := by
  fun_induction interfaceFrom depth c generalizing found with
  | case1 => simp at h
  | case2 depth c statement hstatement _ ih =>
    obtain ⟨further, hfurther, rfl⟩ := map_eq_ok_iff.mp h
    obtain ⟨further', hfurther', hothers⟩ := ih hfurther
    obtain ⟨statement', hstatement', hcursor, hedits⟩ := moduleStatement_moved hstatement
    refine ⟨statement'.value ++ further', ?_, ?_⟩
    · rw [interfaceFrom_of_statement hstatement', hcursor, hfurther']
      rfl
    · rw [Interface.append_edits, Interface.append_edits, List.map_append, hedits, hothers]
  | case3 depth c hnone hend =>
    obtain rfl := Except.ok.inj h
    obtain ⟨previous, rest⟩ := c
    cases rest with
    | nil => exact ⟨.empty, interfaceFrom_nil _ _, rfl⟩
    | cons t rest => simp [Cursor.bump] at hend
  | case4 depth c hnone a hbump _ ih =>
    obtain ⟨found', hfound', hedits⟩ := ih h
    obtain ⟨none', hnone', hsame⟩ := moduleStatement_of_bare_eq (c.bare_moved (d := d)) hnone
    obtain rfl : none' = none := by simpa using hsame
    obtain ⟨a', hbump', hvalue, hcursor⟩ := bump_moved (d := d) hbump
    refine ⟨found', ?_, hedits⟩
    rw [interfaceFrom_of_token hnone' hbump', hvalue, hcursor]
    exact hfound'

/-- Moved edits take the same out of a text that stands further to the right. -/
theorem applyEdits_moved (offset : Nat) (s : Text) (edits : List Edit) :
    applyEdits (d + offset) s (edits.map (Edit.moved d)) = applyEdits offset s edits := by
  induction edits generalizing offset s with
  | nil => rfl
  | cons edit edits ih =>
    have hfront : d + edit.span.start - (d + offset) = edit.span.start - offset := by omega
    have htaken : d + edit.span.stop - (d + edit.span.start) =
        edit.span.stop - edit.span.start := by
      omega
    simp only [List.map_cons, applyEdits, Edit.moved, Span.moved, hfront, htaken, ih]

/-! ### The line that is read by no one -/

/-- Behind such a line there is no other one. -/
theorem hashbang_afterHashbang (s : Text) : hashbang (afterHashbang s) = [] := by
  rcases hashbang_cases s with hnone | ⟨-, hfeed⟩
  · rw [afterHashbang_eq_self hnone, hnone]
  · exact hashbang_of_lineFeed hfeed

/-- The tokens behind such a line stand as far to the right as it is long. -/
theorem cursor_behind_hashbang (s : Text) :
    (Cursor.ofSource (afterHashbang s)).moved (Text.size (hashbang s)) = Cursor.ofSource s := by
  rw [Cursor.moved, Cursor.ofSource, tokenize_of_hashbang (hashbang_afterHashbang s),
    ← Token.place_moved]
  rfl

/-- **A stripped source starts with the line that is read by no one**, and behind it stands what the
source behind that line is stripped to. -/
theorem strip_behind_hashbang {s t : Text} (h : strip s = .ok t) :
    ∃ rest, strip (afterHashbang s) = .ok rest ∧ t = hashbang s ++ rest := by
  obtain ⟨found, hread, rfl⟩ := map_eq_ok_iff.mp h
  rw [Interface.read, ← cursor_behind_hashbang] at hread
  have hbare : bareResult Interface.bare (Interface.read (afterHashbang s)) =
      bareResult Interface.bare (.ok found) := by
    rw [← hread, Interface.read, ← interfaceFrom_bare, ← interfaceFrom_bare, Cursor.bare_moved]
  rcases eq_of_bareResult hbare with ⟨_, _, -, hfailed, -⟩ | ⟨found', _, hread', -, -⟩
  · cases hfailed
  · obtain ⟨moved, hmoved, hedits⟩ := interfaceFrom_moved (d := Text.size (hashbang s)) hread'
    obtain rfl : moved = found := Except.ok.inj (hmoved.symm.trans hread)
    refine ⟨applyEdits 0 (afterHashbang s) found'.edits, by rw [strip, hread']; rfl, ?_⟩
    have hbehind : ∀ edit ∈ moved.edits, 0 + Text.size (hashbang s) ≤ edit.span.start := by
      rw [hedits, List.forall_mem_map]
      exact fun edit _ => by simp [Edit.moved, Span.moved]
    conv_lhs => rw [← hashbang_append_afterHashbang s]
    rw [applyEdits_append hbehind, Nat.add_comm, hedits, applyEdits_moved]

end ScriptBundle
