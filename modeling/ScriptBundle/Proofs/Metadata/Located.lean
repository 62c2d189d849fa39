import ScriptBundle.Proofs.Metadata.Agreement
import ScriptBundle.Proofs.Module.Located
import ScriptBundle.Proofs.Token.Tiling

/-!
# Places of Syntax Errors

The reader of metadata reports its errors where the reader of modules does: at a token in sight, or
at the start of a text without any. One error is remembered while the reader goes on, the place of a
value that is no object, and it too is that of a token. So an offset that either reader reports
never falls inside of a character, and the line of it is found.

## Main definitions

* `Token.IsPlaceAmong`: whether an offset is that of a token;
* `KeepsToTokens`: whether a reader passes tokens, and fails at one of them.

## Main statements

* `metadataEntry_keeps`, `metadataEntries_errs`, `seekObject_errs`, ...: where each reader fails;
* `line_of_syntaxError`: the line of an error that one of the two readers reports.
-/

namespace ScriptBundle

/-- Whether an offset is the **place of a token**, or the start of the text. -/
def Token.IsPlaceAmong (ts : List Token) (offset : Nat) : Prop :=
  offset = 0 ∨ ∃ t ∈ ts, t.start = offset

theorem Token.IsPlaceAmong.mono {ts others : List Token} {offset : Nat}
    (h : Token.IsPlaceAmong ts offset) (hsub : ts ⊆ others) : Token.IsPlaceAmong others offset :=
  h.imp_right fun ⟨t, ht, hstart⟩ => ⟨t, hsub ht, hstart⟩

/-- Whether a reader **keeps to the tokens** ahead of a cursor: where it succeeds it has passed some
of them, and where it fails the error lies at a token in sight. -/
structure KeepsToTokens (c : Cursor) (x : Except SyntaxError (Advance c α)) : Prop where
  errs : ErrsInSight c x
  passes : ∀ a, x = .ok a → ∃ passed, c.Passes passed a.cursor

namespace KeepsToTokens

variable {c target : Cursor}

theorem fail (c : Cursor) (fault : SyntaxFault) :
    KeepsToTokens c (c.fail fault : Except SyntaxError (Advance c α)) :=
  ⟨.fail c fault, fun a h => by simp [Cursor.fail] at h⟩

theorem ok {a : Advance c α} {passed : List Token} (h : c.Passes passed a.cursor) :
    KeepsToTokens c (.ok a) := by
  refine ⟨.ok a, fun b hb => ?_⟩
  obtain rfl := Except.ok.inj hb
  exact ⟨passed, h⟩

/-- A reader that goes on behind passed tokens. -/
theorem behind {passed : List Token} (hpasses : c.Passes passed target)
    {x : Except SyntaxError (Advance target α)} (h : KeepsToTokens target x)
    {f : Advance target α → Advance c β} (hf : ∀ a, (f a).cursor = a.cursor) :
    KeepsToTokens c (x.map f) := by
  refine ⟨(h.errs.behind hpasses).map f, fun b hb => ?_⟩
  obtain ⟨a, ha, rfl⟩ := map_eq_ok_iff.mp hb
  obtain ⟨others, hothers⟩ := h.passes a ha
  exact ⟨passed ++ others, by rw [hf]; exact hpasses.trans hothers⟩

/-- A reader whose value is changed. -/
theorem map {x : Except SyntaxError (Advance c α)} (h : KeepsToTokens c x)
    {f : Advance c α → Advance c β} (hf : ∀ a, (f a).cursor = a.cursor) :
    KeepsToTokens c (x.map f) :=
  h.behind (.refl c) hf

/-- A reader that hands on the error of another one. -/
theorem handed {x : Except SyntaxError (Advance c α)} (h : KeepsToTokens c x) {e : SyntaxError}
    (hx : x = .error e) : KeepsToTokens c (.error e : Except SyntaxError (Advance c β)) :=
  ⟨h.errs.handed hx, fun a ha => by simp at ha⟩

end KeepsToTokens

/-! ### Declarations of an object -/

theorem expectPunctuator_keeps (c : Cursor) (char : Char) :
    KeepsToTokens c (expectPunctuator c char) := by
  rw [expectPunctuator]
  split
  · next a ha => exact .ok (eatPunctuator_passes ha)
  · exact .fail c _

theorem metadataKey_keeps (c : Cursor) : KeepsToTokens c (metadataKey c) := by
  rw [metadataKey]
  split
  · exact .fail c _
  · next a ha =>
    split
    · exact .ok (bump_passes ha)
    · exact .ok (bump_passes ha)
    · exact .fail c _

theorem metadataString_keeps (c : Cursor) : KeepsToTokens c (metadataString c) := by
  rw [metadataString]
  split
  · exact .fail c _
  · next a ha =>
    split
    · exact .ok (bump_passes ha)
    · simp only
      split
      · exact .fail c _
      · exact .ok (bump_passes ha)
    · exact .fail c _

theorem metadataItems_keeps (c : Cursor) : KeepsToTokens c (metadataItems c) := by
  induction hlength : c.rest.length using Nat.strongRecOn generalizing c with
  | _ n ih =>
    rw [metadataItems]
    split
    · next a ha => exact .ok (eatPunctuator_passes ha)
    · split
      · next e hitem => exact (metadataString_keeps c).handed hitem
      · next item hitem =>
        obtain ⟨passed, hpassed⟩ := (metadataString_keeps c).passes item hitem
        simp only
        split
        · next comma hcomma =>
          have hshorter := Nat.lt_trans comma.shorter item.shorter
          have hothers := ih _ (hlength ▸ hshorter) comma.cursor rfl
          exact hothers.behind (hpassed.trans (eatPunctuator_passes hcomma)) fun _ => rfl
        · exact (expectPunctuator_keeps _ _).behind hpassed fun _ => rfl

theorem metadataValue_keeps (c : Cursor) : KeepsToTokens c (metadataValue c) := by
  rw [metadataValue]
  split
  · next a ha => exact (metadataItems_keeps _).behind (eatPunctuator_passes ha) fun _ => rfl
  · exact (metadataString_keeps c).map fun _ => rfl

theorem metadataEntry_keeps (c : Cursor) : KeepsToTokens c (metadataEntry c) := by
  rw [metadataEntry]
  split
  · next e hkey => exact (metadataKey_keeps c).handed hkey
  · next key hkey =>
    obtain ⟨first, hfirst⟩ := (metadataKey_keeps c).passes key hkey
    have hexpect := expectPunctuator_keeps key.cursor ':'
    split
    · next e hcolon =>
      refine ⟨(hexpect.errs.handed hcolon).behind hfirst, fun a ha => by simp at ha⟩
    · next colon hcolon =>
      obtain ⟨second, hsecond⟩ := hexpect.passes colon hcolon
      exact (metadataValue_keeps _).behind (hfirst.trans hsecond) fun _ => rfl

/-- The error that ends the declarations of an object lies at a token in sight. -/
theorem metadataEntries_errs (c : Cursor) :
    ∀ e, (metadataEntries c).error = some e → Token.IsPlaceAmong c.inSight e.offset := by
  induction hlength : c.rest.length using Nat.strongRecOn generalizing c with
  | _ n ih =>
    intro e he
    rw [metadataEntries] at he
    split at he
    · simp at he
    · split at he
      · next cause hentry =>
        obtain rfl := Option.some.inj he
        exact (metadataEntry_keeps c).errs _ hentry
      · next entry hentry =>
        obtain ⟨passed, hpassed⟩ := (metadataEntry_keeps c).passes entry hentry
        simp only at he
        split at he
        · next comma hcomma =>
          have hshorter := Nat.lt_trans comma.shorter entry.shorter
          have hpasses := hpassed.trans (eatPunctuator_passes hcomma)
          exact (ih _ (hlength ▸ hshorter) comma.cursor rfl e he).mono hpasses.inSight_subset
        · split at he
          · simp at he
          · next cause hbrace =>
            obtain rfl := Option.some.inj he
            exact ((expectPunctuator_keeps _ _).errs.behind hpassed) _ hbrace

/-! ### The exported object -/

/-- The place of a value that is no object is remembered as that of a token, and where none is
remembered and none is found, the error lies at the start of the text. -/
theorem seekObject_errs {ts : List Token} {depth : Nat} {notObject : Option Nat} {c : Cursor}
    (hsight : c.inSight ⊆ ts) (hplace : ∀ offset ∈ notObject, Token.IsPlaceAmong ts offset) :
    ∀ e, seekObject depth notObject c = .error e → Token.IsPlaceAmong ts e.offset := by
  intro e he
  fun_induction seekObject depth notObject c with
  | case1 depth c hnone offset =>
    obtain rfl := Except.error.inj he
    exact hplace offset rfl
  | case2 =>
    obtain rfl := Except.error.inj he
    exact .inl rfl
  | case3 => simp at he
  | case4 depth notObject c a hbump _ hexport found hlength hvalue hobject ih =>
    obtain ⟨passed, -, -, hpasses, -⟩ := exportedValue_words a.cursor
    have hsub : found.2.inSight ⊆ ts := fun t ht =>
      hsight (((bump_passes hbump).trans hpasses).inSight_subset ht)
    refine ih hsub ?_ he
    -- The value that was remembered first stays the one that is reported.
    cases notObject with
    | some earlier => exact hplace
    | none =>
      rintro _ ⟨⟩
      exact Token.IsPlaceAmong.mono found.2.offset_inSight hsub
  | case5 depth notObject c a hbump _ hexport found hlength hvalue ih =>
    obtain ⟨passed, -, -, hpasses, -⟩ := exportedValue_words a.cursor
    exact ih (fun t ht => hsight (((bump_passes hbump).trans hpasses).inSight_subset ht)) hplace he
  | case6 depth notObject c a hbump _ hexport ih =>
    exact ih (fun t ht => hsight ((bump_passes hbump).inSight_subset ht)) hplace he

/-- In front of the object only tokens have been passed. -/
theorem seekObject_passes {depth : Nat} {notObject : Option Nat} {c object : Cursor}
    (h : seekObject depth notObject c = .ok object) : ∃ passed, c.Passes passed object := by
  fun_induction seekObject depth notObject c with
  | case1 => simp at h
  | case2 => simp at h
  | case3 depth notObject c a hbump _ hexport found hlength hvalue hobject =>
    obtain rfl := Except.ok.inj h
    obtain ⟨passed, -, -, hpasses, -⟩ := exportedValue_words a.cursor
    exact ⟨_, (bump_passes hbump).trans hpasses⟩
  | case4 depth notObject c a hbump _ hexport found _ _ _ ih
  | case5 depth notObject c a hbump _ hexport found _ _ ih =>
    obtain ⟨passed, -, -, hpasses, -⟩ := exportedValue_words a.cursor
    obtain ⟨others, hothers⟩ := ih h
    exact ⟨_, ((bump_passes hbump).trans hpasses).trans hothers⟩
  | case6 depth notObject c a hbump _ hexport ih =>
    obtain ⟨others, hothers⟩ := ih h
    exact ⟨_, (bump_passes hbump).trans hothers⟩

/-! ### Sources -/

/-- What is wrong with a module is found at one of its tokens. -/
theorem isPlaceAmong_of_interface {source : Text} {e : SyntaxError}
    (h : Interface.read source = .error e) : Token.IsPlaceAmong (tokenize source) e.offset :=
  interfaceFrom_errs 0 _ e h

/-- What is wrong with the metadata is found at one of the tokens of the module. -/
theorem isPlaceAmong_of_metadata {source : Text} {e : SyntaxError}
    (h : Metadata.read source = .error e) : Token.IsPlaceAmong (tokenize source) e.offset := by
  have herror : (MetadataReading.ofSource source).error = some e := by
    rw [Metadata.read, MetadataReading.result] at h
    split at h
    · next cause hcause => rw [hcause, Except.error.inj h]
    · simp at h
  rw [MetadataReading.ofSource] at herror
  split at herror
  · next cause hseek =>
    obtain rfl := Option.some.inj herror
    exact seekObject_errs (fun _ ht => ht) (by simp) _ hseek
  · next object hseek =>
    obtain ⟨front, hfront⟩ := seekObject_passes hseek
    have hexpect := expectPunctuator_keeps object '\x7b'
    split at herror
    · next cause hbrace =>
      obtain rfl := Option.some.inj herror
      exact (hexpect.errs.behind hfront) _ hbrace
    · next brace hbrace =>
      obtain ⟨passed, hpassed⟩ := hexpect.passes brace hbrace
      exact (metadataEntries_errs _ e herror).mono (hfront.trans hpassed).inSight_subset

/-- The place of a token is a place between characters. -/
theorem Token.IsPlaceAmong.exists_around {source : Text} {offset : Nat}
    (h : Token.IsPlaceAmong (tokenize source) offset) :
    ∃ before behind, source = before ++ behind ∧ Text.size before = offset := by
  rcases h with rfl | ⟨t, ht, rfl⟩
  · exact ⟨[], source, rfl, rfl⟩
  · obtain ⟨front, behind, hsource, hstart⟩ := exists_around_of_mem_tokenize ht
    exact ⟨front, t.text ++ behind, hsource, hstart.symm⟩

/-- **The line of a syntax error.** What is wrong with a module or with the metadata in it is
reported at the start of the text or of one of its tokens. So the text can be cut there, and the
error has a line: one more than there are line feeds in front of it. -/
theorem line_of_syntaxError {source : Text} {e : SyntaxError}
    (h : Interface.read source = .error e ∨ Metadata.read source = .error e) :
    (e.offset = 0 ∨ ∃ t ∈ tokenize source, t.start = e.offset) ∧
      ∃ before behind, source = before ++ behind ∧ Text.size before = e.offset ∧
        e.line? source = some (before.count '\n' + 1) := by
  have hplace : Token.IsPlaceAmong (tokenize source) e.offset :=
    h.elim isPlaceAmong_of_interface isPlaceAmong_of_metadata
  obtain ⟨before, behind, hsource, hsize⟩ := hplace.exists_around
  refine ⟨hplace, before, behind, hsource, hsize, ?_⟩
  rw [SyntaxError.line?, ← hsize, hsource, Text.line?, Text.position?_size]
  rfl

/-- A module that exports a number on its second line, where an object is looked for. -/
def numberSource : Text := "export const m =\n1; f()".toList

/-- The error lies at the number, although the reader comes to the end of the module. -/
theorem line_of_syntaxError_of_number :
    Metadata.read numberSource = .error ⟨.metadataNotObject, 17⟩ ∧
      SyntaxError.line? ⟨.metadataNotObject, 17⟩ numberSource = some 2 := by
  have hread : Metadata.read numberSource = .error ⟨.metadataNotObject, 17⟩ := by
    simp only [Metadata.read, MetadataReading.ofSource, Cursor.ofSource, tokenize_eq_upTo]
    cbv
  obtain ⟨-, before, behind, hsource, hsize, hline⟩ := line_of_syntaxError (.inr hread)
  have hplaces : ∀ front ∈ numberSource.inits, Text.size front = 17 → front.count '\n' = 1 := by
    decide
  have hcount : before.count '\n' = 1 :=
    hplaces before ((List.mem_inits _ _).mpr ⟨behind, hsource.symm⟩) hsize
  exact ⟨hread, by rw [hline, hcount]⟩

end ScriptBundle
