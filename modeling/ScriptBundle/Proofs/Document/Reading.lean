import ScriptBundle.Proofs.Document.Indentation

/-!
# Reading a Document Line by Line

The parts of a document stand on lines of their own. If each of them ends cleanly, then the tokens
of the document are those of its parts, each read in the state that the part before has left.

## Main definitions

* `Reads`: what the lexer finds in a text, from one state on;
* `ReadsLines`: what it finds in lines, from one state to another.

## Main statements

* `ReadsLines.joinLines`: joined lines are read as the lines are;
* `reads_comment`: a line comment contributes nothing.
-/

namespace ScriptBundle

/-- The lexer **reads** contents in a text if the text ends cleanly and these are the contents of
its tokens. -/
structure Reads (state : LexState) (s : Text) (found : List (TokenKind × Option Text)) : Prop where
  ends : EndsCleanly state s
  contents : (lexemes state s).map Lexeme.content = found

namespace Reads

variable {state : LexState} {s u : Text} {xs ys : List (TokenKind × Option Text)}

/-- The kinds are a part of the contents. -/
theorem kinds (h : Reads state s xs) : (lexemes state s).map Lexeme.kind = xs.map Prod.fst := by
  rw [← h.contents, List.map_map]
  rfl

/-- Nothing reads as nothing. -/
theorem nil (state : LexState) : Reads state [] [] := ⟨endsCleanly_nil state, by simp⟩

/-- Two lines are read one behind the other. -/
theorem append (hs : Reads state s xs) (hu : Reads (state.behind (xs.map Prod.fst)) u ys) :
    Reads state (s ++ '\n' :: u) (xs ++ ys) := by
  rw [← hs.kinds] at hu
  refine ⟨hs.ends.append hu.ends, ?_⟩
  rw [lexemes_append hs.ends, List.map_append, hs.contents, map_behindLine fun _ _ => rfl,
    hu.contents]

/-- White space in front of a text changes nothing. -/
theorem of_blank {b : Text} (hb : IsBlankText b) (h : Reads state s xs) :
    Reads state (b ++ s) xs := by
  obtain ⟨crosses, hblank⟩ := lexeme?_blank hb s
  have hfirst := hblank state
  cases hs : lexeme? state s with
  | none =>
    obtain ⟨hlexemes, htrivia⟩ := lexemes_of_none hs
    rw [hs] at hfirst
    obtain ⟨hlexemes', htrivia'⟩ := lexemes_of_none hfirst
    refine ⟨⟨by simp [hlexemes'], ?_⟩, by rw [hlexemes', ← hlexemes, h.contents]⟩
    rw [htrivia', leavesCommentOpen_blank hb, ← htrivia, h.ends.comments]
  | some found =>
    obtain ⟨l, rest⟩ := found
    obtain ⟨hlexemes, htrivia⟩ := lexemes_of_some hs
    rw [hs] at hfirst
    obtain ⟨hlexemes', htrivia'⟩ := lexemes_of_some hfirst
    refine ⟨⟨?_, by rw [htrivia', ← htrivia, h.ends.comments]⟩, ?_⟩
    · rw [hlexemes']
      intro m hm
      rcases List.mem_cons.mp hm with rfl | hm
      · exact h.ends.literals l (by simp [hlexemes])
      · exact h.ends.literals m (by simp [hlexemes, hm])
    · rw [← h.contents, hlexemes, hlexemes']
      rfl

end Reads

/-! ### Lines -/

/-- The lexer **reads lines** one behind the other, from one state to another. -/
inductive ReadsLines :
    LexState → List Text → List (TokenKind × Option Text) → LexState → Prop
  | nil (state : LexState) : ReadsLines state [] [] state
  | cons {state stop : LexState} {line : Text} {rest : List Text}
      {xs ys : List (TokenKind × Option Text)} (hline : Reads state line xs)
      (hrest : ReadsLines (state.behind (xs.map Prod.fst)) rest ys stop) :
      ReadsLines state (line :: rest) (xs ++ ys) stop

namespace ReadsLines

variable {state middle stop : LexState} {lines others : List Text}
  {xs ys : List (TokenKind × Option Text)}

/-- A line by itself. -/
theorem single {line : Text} (h : Reads state line xs) :
    ReadsLines state [line] xs (state.behind (xs.map Prod.fst)) := by
  simpa using cons h (nil _)

/-- Lines are read one behind the other. -/
theorem append (h : ReadsLines state lines xs middle) (h' : ReadsLines middle others ys stop) :
    ReadsLines state (lines ++ others) (xs ++ ys) stop := by
  induction h with
  | nil => exact h'
  | cons hline _ ih =>
    rw [List.cons_append, List.append_assoc]
    exact cons hline (ih h')

/-- Joined lines are read as the lines are. -/
theorem joinLines (h : ReadsLines state lines xs stop) : Reads state (Text.joinLines lines) xs := by
  induction h with
  | nil state => exact Reads.nil state
  | @cons state _ line rest xs ys hline hrest ih =>
    cases rest with
    | nil =>
      cases hrest
      simpa [Text.joinLines] using hline
    | cons next rest =>
      rw [joinLines_cons, ← lineFeed_joinLines (by simp)]
      exact hline.append ih

end ReadsLines

/-! ### Lines of one kind -/

/-- A line without a line feed reaches to the end of its text. -/
theorem scanLine_eq_of_not_mem {s : Text} (h : '\n' ∉ s) : scanLine s = ⟨(), s, []⟩ := by
  induction s with
  | nil => rfl
  | cons c s ih =>
    have hc : c ≠ '\n' := fun hc => h (by simp [hc])
    have hs := ih fun hs => h (by simp [hs])
    simp only [scanLine, Scan.mk.injEq, true_and] at hs ⊢
    rw [List.takeWhile_cons_of_pos (by simpa using hc),
      List.dropWhile_cons_of_pos (by simpa using hc), hs.1, hs.2]
    exact ⟨rfl, rfl⟩

/-- A line comment contributes nothing. -/
theorem reads_comment (state : LexState) {s : Text} (h : '\n' ∉ s) :
    Reads state ('/' :: '/' :: s) [] := by
  have hline := scanLine_eq_of_not_mem h
  have hnone : lexeme? state ('/' :: '/' :: s) = none := by
    simp [lexeme?, scanTrivia, hline]
  obtain ⟨hlexemes, htrivia⟩ := lexemes_of_none hnone
  refine ⟨⟨by simp [hlexemes], ?_⟩, by simp [hlexemes]⟩
  rw [htrivia, leavesCommentOpen, hline, leavesCommentOpen]

end ScriptBundle
