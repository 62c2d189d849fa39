import ScriptBundle.Metadata.Reader
import ScriptBundle.Proofs.Token.Substitution
import ScriptBundle.Proofs.Token.Tiling
import ScriptBundle.Proofs.Token.Written

/-!
# Templates as Metadata

A template may stand for a string among the metadata. Its characters are taken as they stand, and it
is refused if a dollar sign and an opening brace follow one another in it, be it that they open a
substitution or that a backslash takes the dollar sign along. The lexer reads the same characters
between quotes otherwise: it resolves what a backslash stands for.

## Main definitions

* `IsTemplateBody`: the characters between the backquotes of a template;
* `opensSubstitution`, `escapesSubstitution`: what a dollar sign in front of a brace is in them;
* `TemplateText`: characters that open no substitution;
* `resolved`: what characters stand for between quotes.

## Main statements

* `contains_eq_opens_or_escapes`: what the reader looks for is either of the two;
* `opensSubstitution_iff`: the scanner of a template gets to code exactly if a substitution is
  opened;
* `scanString_templateText`: what characters of a template are between quotes;
* `resolved_eq_self_iff`: they stand for themselves exactly if there is no backslash among them;
* `metadataString_template`: how the reader takes a template.
-/

namespace ScriptBundle

open Relation (ReflTransGen)

/-! ### Dollar signs in front of braces -/

/-- Whether a substitution is **opened** among characters of a template: a dollar sign that no
backslash takes along stands in front of a brace. -/
def opensSubstitution : Text → Bool
  | [] => false
  | [_] => false
  | c :: d :: rest =>
    if c = '\\' then opensSubstitution rest
    else (c == '$' && d == '{') || opensSubstitution (d :: rest)

/-- Whether a backslash takes along a dollar sign that stands in front of a brace. -/
def escapesSubstitution : Text → Bool
  | [] => false
  | [_] => false
  | c :: d :: rest =>
    if c = '\\' then (d == '$' && rest.head? == some '{') || escapesSubstitution rest
    else escapesSubstitution (d :: rest)

/-- Where a dollar sign stands in front of a brace it opens a substitution or is escaped. -/
theorem contains_eq_opens_or_escapes (s : Text) :
    Text.contains ['$', '{'] s = (opensSubstitution s || escapesSubstitution s) := by
  fun_induction opensSubstitution s with
  | case1 => rfl
  | case2 c => simp [Text.contains, List.isPrefixOf, escapesSubstitution]
  | case3 d rest ih =>
    have hpair : (['$', '{'] : Text).isPrefixOf (d :: rest) =
        (d == '$' && rest.head? == some '{') := by
      cases rest <;> simp [List.isPrefixOf, BEq.comm]
    have hfirst : (['$', '{'] : Text).isPrefixOf ('\\' :: d :: rest) = false := by
      simp [List.isPrefixOf]
    rw [Text.contains, Text.contains, hfirst, hpair, ih, escapesSubstitution, if_pos rfl,
      Bool.false_or, Bool.or_left_comm]
  | case4 c d rest hback ih =>
    have hpair : (['$', '{'] : Text).isPrefixOf (c :: d :: rest) = (c == '$' && d == '{') := by
      simp [List.isPrefixOf, BEq.comm]
    rw [Text.contains, hpair, ih, escapesSubstitution, if_neg hback, Bool.or_assoc]

/-! ### Characters between backquotes -/

/-- Whether characters stand **between the backquotes** of a template. -/
def IsTemplateBody (inner : Text) : Prop :=
  (scanTemplate (.text []) (inner ++ ['\x60'])).value.closed = true ∧
    (scanTemplate (.text []) (inner ++ ['\x60'])).rest = []

/-- Characters of a template that open no substitution, one by one and with each backslash the
character that it takes along. -/
inductive TemplateText : Text → Prop where
  | nil : TemplateText []
  | escape (c : Char) {rest : Text} (h : TemplateText rest) : TemplateText ('\\' :: c :: rest)
  | character {c : Char} {rest : Text} (tick : c ≠ '\x60') (back : c ≠ '\\')
      (plain : ¬startsSubstitution c rest) (h : TemplateText rest) : TemplateText (c :: rest)

namespace IsTemplateBody

variable {c : Char} {inner rest : Text}

/-- A step of the scanner leads to what is between the backquotes behind it. -/
theorem behind {front : Text} {crosses : Bool} (h : IsTemplateBody inner)
    (hstep : TemplateStep (.text []) (inner ++ ['\x60']) front crosses (.text [])
      (rest ++ ['\x60'])) :
    IsTemplateBody rest := by
  obtain ⟨hclosed, hrest⟩ := h
  rw [hstep.scan] at hclosed hrest
  exact ⟨by simpa using hclosed, by simpa using hrest⟩

/-- A backslash takes a character along. -/
theorem behind_escape (h : IsTemplateBody ('\\' :: c :: rest)) : IsTemplateBody rest :=
  h.behind (.escape [] c _)

/-- A backslash never stands last, since it would take the closing backquote along. -/
theorem ne_backslash (h : IsTemplateBody [c]) : c ≠ '\\' := by
  rintro rfl
  obtain ⟨hclosed, -⟩ := h
  have hstep : TemplateStep (.text []) ['\\', '\x60'] ['\\', '\x60'] false (.text []) [] :=
    .escape [] '\x60' []
  rw [List.singleton_append, hstep.scan] at hclosed
  simp [scanTemplate] at hclosed

/-- A backquote alone would close the template. -/
theorem ne_backquote (h : IsTemplateBody (c :: rest)) : c ≠ '\x60' := by
  rintro rfl
  have hrest := h.2
  rw [List.cons_append, scanTemplate] at hrest
  simp at hrest

/-- A backquote behind a character starts nothing with it. -/
theorem startsSubstitution_append_iff (c : Char) (rest : Text) :
    startsSubstitution c (rest ++ ['\x60']) ↔ startsSubstitution c rest := by
  cases rest <;> simp [startsSubstitution]

/-- Another character is taken by itself. -/
theorem behind_character (h : IsTemplateBody (c :: rest)) (hback : c ≠ '\\')
    (hplain : ¬startsSubstitution c rest) : IsTemplateBody rest :=
  h.behind (.character [] h.ne_backquote hback
    (mt (startsSubstitution_append_iff c rest).mp hplain))

/-- Characters that open no substitution are taken one by one. -/
theorem templateText (h : IsTemplateBody inner) (hopens : opensSubstitution inner = false) :
    TemplateText inner := by
  fun_induction opensSubstitution inner with
  | case1 => exact .nil
  | case2 c =>
    exact .character h.ne_backquote h.ne_backslash (by simp [startsSubstitution]) .nil
  | case3 d rest ih => exact .escape d (ih h.behind_escape hopens)
  | case4 c d rest hback ih =>
    obtain ⟨hpair, hrest⟩ := Bool.or_eq_false_iff.mp hopens
    have hplain : ¬startsSubstitution c (d :: rest) := by
      rintro ⟨rfl, hhead⟩
      simp_all
    exact .character h.ne_backquote hback hplain (ih (h.behind_character hback hplain) hrest)

/-- Where a substitution is opened the scanner gets to its code. -/
theorem exists_code (h : IsTemplateBody inner) (hopens : opensSubstitution inner = true) :
    ∃ behind, ReflTransGen TemplateMove (.text [], inner ++ ['\x60']) (.code 1 [], behind) := by
  fun_induction opensSubstitution inner with
  | case1 | case2 => simp at hopens
  | case3 d rest ih =>
    obtain ⟨behind, hreaches⟩ := ih h.behind_escape hopens
    have hstep : TemplateMove (.text [], '\\' :: d :: rest ++ ['\x60'])
        (.text [], rest ++ ['\x60']) :=
      ⟨_, _, .escape [] d _⟩
    exact ⟨behind, .head hstep hreaches⟩
  | case4 c d rest hback ih =>
    by_cases hplain : startsSubstitution c (d :: rest)
    · obtain ⟨rfl, hhead⟩ := hplain
      obtain rfl : d = '{' := by simpa using hhead
      exact ⟨_, .single ⟨_, _, .substitution [] _⟩⟩
    · have hrest : opensSubstitution (d :: rest) = true := by
        refine (Bool.or_eq_true_iff.mp hopens).resolve_left fun hpair => hplain ?_
        simpa [startsSubstitution] using hpair
      obtain ⟨behind, hreaches⟩ := ih (h.behind_character hback hplain) hrest
      have hstep : TemplateMove (.text [], c :: d :: rest ++ ['\x60'])
          (.text [], d :: rest ++ ['\x60']) :=
        ⟨_, _, .character [] h.ne_backquote hback
          (mt (startsSubstitution_append_iff c (d :: rest)).mp hplain)⟩
      exact ⟨behind, .head hstep hreaches⟩

end IsTemplateBody

/-- Over characters that open no substitution the scanner stays in the template. -/
theorem TemplateText.eq_text {inner : Text} (h : TemplateText inner) {a : TemplateState × Text}
    (hreaches : ReflTransGen TemplateMove (.text [], inner ++ ['\x60']) a) : a.1 = .text [] := by
  induction h with
  | nil =>
    rcases hreaches.cases_head with rfl | ⟨⟨state, s⟩, ⟨_, _, hstep⟩, -⟩
    · rfl
    · cases hstep with
      | character _ tick => exact absurd rfl tick
  | escape c _ ih =>
    rcases hreaches.cases_head with rfl | ⟨⟨state, s⟩, ⟨_, _, hstep⟩, hfurther⟩
    · rfl
    · cases hstep with
      | escape => exact ih hfurther
      | character _ _ back => exact absurd rfl back
  | @character c rest tick back plain _ ih =>
    rcases hreaches.cases_head with rfl | ⟨⟨state, s⟩, ⟨_, _, hstep⟩, hfurther⟩
    · rfl
    · have hplain := mt (IsTemplateBody.startsSubstitution_append_iff c rest).mp plain
      generalize hs : rest ++ ['\x60'] = s' at hstep hplain
      rw [List.cons_append, hs] at hstep
      cases hstep with
      | escape => exact absurd rfl back
      | substitution => exact absurd ⟨rfl, rfl⟩ hplain
      | character => exact ih (hs ▸ hfurther)

/-- The scanner of a template gets to the code of a substitution exactly if one is opened. -/
theorem opensSubstitution_iff {inner : Text} (h : IsTemplateBody inner) :
    opensSubstitution inner = true ↔
      ∃ behind, ReflTransGen TemplateMove (.text [], inner ++ ['\x60']) (.code 1 [], behind) := by
  refine ⟨h.exists_code, ?_⟩
  rintro ⟨behind, hreaches⟩
  cases hopens : opensSubstitution inner with
  | true => rfl
  | false => exact absurd ((h.templateText hopens).eq_text hreaches) (by simp)

/-- Characters without a backslash hold no dollar sign that one takes along. -/
theorem escapesSubstitution_of_not_mem {s : Text} (h : '\\' ∉ s) :
    escapesSubstitution s = false := by
  fun_induction escapesSubstitution s with
  | case1 | case2 => rfl
  | case3 => simp at h
  | case4 c d rest hback ih => exact ih fun hmem => h (List.mem_cons_of_mem _ hmem)

/-! ### Between quotes -/

/-- What characters **stand for** between quotes. -/
def resolved : Text → Text
  | '\\' :: c :: rest => escapedText c ++ resolved rest
  | c :: rest => c :: resolved rest
  | [] => []

theorem resolved_cons {c : Char} (h : c ≠ '\\') (rest : Text) :
    resolved (c :: rest) = c :: resolved rest := by
  rw [resolved]
  exact fun _ _ hc _ => h hc

/-- A backslash and the character behind it stand for one character at most. -/
theorem length_escapedText (c : Char) : (escapedText c).length ≤ 1 := by
  unfold escapedText
  repeat' split
  all_goals simp

section

variable {inner : Text} (h : TemplateText inner)
include h

/-- The characters of a template are read as what they stand for, if neither the quote nor a line
feed is one of them. -/
theorem scanString_templateText (quote : Quote) (hfeed : '\n' ∉ inner) (hquote : quote.char ∉ inner)
    (rest : Text) : scanString quote.char (inner ++ quote.char :: rest) =
      ⟨some (resolved inner), inner ++ [quote.char], rest⟩ := by
  induction h with
  | nil =>
    have hends : quote.char ≠ '\\' ∧ quote.char ≠ '\n' := by cases quote <;> decide
    simp [scanString_cons hends.1, hends.2, resolved]
  | escape c _ ih =>
    simp only [List.mem_cons, not_or] at hfeed hquote
    rw [List.cons_append, List.cons_append, scanString, ih hfeed.2.2 hquote.2.2]
    rfl
  | character tick back plain _ ih =>
    simp only [List.mem_cons, not_or] at hfeed hquote
    rw [List.cons_append, scanString_cons back, if_neg (Ne.symm hfeed.1), if_neg (Ne.symm hquote.1),
      ih hfeed.2 hquote.2, resolved_cons back]
    rfl

/-- Characters stand for no more characters than they are. -/
theorem length_resolved_le : (resolved inner).length ≤ inner.length := by
  induction h with
  | nil => simp [resolved]
  | escape c _ ih =>
    have hone := length_escapedText c
    rw [resolved, List.length_append, List.length_cons, List.length_cons]
    omega
  | character tick back plain _ ih =>
    rw [resolved_cons back, List.length_cons, List.length_cons]
    omega

/-- The characters of a template stand for themselves exactly if there is no backslash among
them. -/
theorem resolved_eq_self_iff : resolved inner = inner ↔ '\\' ∉ inner := by
  induction h with
  | nil => simp [resolved]
  | @escape c rest hrest ih =>
    -- the two characters become one at most, and the others no more than they are
    have hshorter : (resolved ('\\' :: c :: rest)).length < ('\\' :: c :: rest).length := by
      have hone := length_escapedText c
      have hothers := length_resolved_le hrest
      rw [resolved, List.length_append, List.length_cons, List.length_cons]
      omega
    refine iff_of_false (fun heq => ?_) (by simp)
    exact absurd (congrArg List.length heq) (Nat.ne_of_lt hshorter)
  | character tick back plain _ ih =>
    rw [resolved_cons back, List.cons.injEq, ih]
    simp [Ne.symm back]

/-- Between quotes the characters of a template are a string of what they stand for. -/
theorem lexeme?_templateText (quote : Quote) (hfeed : '\n' ∉ inner) (hquote : quote.char ∉ inner)
    (state : LexState) (rest : Text) :
    lexeme? state (quote.char :: (inner ++ quote.char :: rest)) =
      some (⟨[], quote.char :: (inner ++ [quote.char]), .string (String.ofList (resolved inner)),
        false⟩, rest) := by
  have hspacing : isSpacing quote.char = false := by cases quote <;> decide
  have hcomment : ∀ s, ¬startsComment quote.char s := fun s hstart =>
    absurd hstart.1 (by cases quote <;> decide)
  rw [lexeme?_of_start hspacing (hcomment _), scanToken_quote quote.char_eq,
    scanString_templateText h quote hfeed hquote]
  rfl

end

/-! ### The reader -/

/-- A template that is a token stands between its backquotes. -/
theorem exists_isTemplateBody {state : LexState} {s rest : Text} {l : Lexeme}
    (h : lexeme? state s = some (l, rest)) (hkind : l.kind = .template) :
    ∃ inner, l.text = '\x60' :: (inner ++ ['\x60']) ∧ IsTemplateBody inner := by
  obtain ⟨inner, htext⟩ := exists_of_template h hkind
  obtain ⟨c, tail, hcons, -, -, crosses, htoken⟩ := exists_cons_of_lexeme? h
  obtain ⟨rfl, rfl⟩ := List.cons.inj (hcons.symm.trans htext)
  have htemplate : (scanToken state.regexAllowed '\x60' (inner ++ ['\x60'] ++ rest)).value.1 =
      .template := by rw [htoken, hkind]
  have hclosed := (eq_backquote_of_template htemplate).2
  rw [scanToken_backquote] at htoken
  have htaken : (scanTemplate (.text []) (inner ++ ['\x60'] ++ rest)).taken =
      inner ++ ['\x60'] := by
    simpa [htext] using congrArg Scan.taken htoken
  have halone := scanTemplate_taken hclosed []
  rw [htaken, List.append_nil] at halone
  refine ⟨inner, htext, ?_, ?_⟩
  · rw [halone]
    exact hclosed
  · rw [halone]
    rfl

/-- The reader refuses a template in which a dollar sign stands in front of a brace, and takes the
characters of others as they stand. -/
theorem metadataString_of_template {c : Cursor} {t : Token} (hpeek : c.peek = some t)
    (hkind : t.kind = .template) {inner : Text} (htext : t.text = '\x60' :: (inner ++ ['\x60'])) :
    (metadataString c).map (·.value) =
      if opensSubstitution inner || escapesSubstitution inner then
        .error ⟨.metadataSubstitution, t.start⟩
      else .ok (String.ofList inner) := by
  obtain ⟨previous, ts⟩ := c
  obtain ⟨rest, rfl⟩ := List.head?_eq_some_iff.mp hpeek
  have hinner : templateInner t.text = inner := by simp [templateInner, htext]
  simp only [metadataString, Cursor.bump, hkind, hinner, contains_eq_opens_or_escapes]
  split
  · rfl
  · rfl

/-- **How a template is taken as a metadata value.** It is refused if a substitution is opened in
it, and also if a backslash takes along a dollar sign in front of a brace, which opens none.
Otherwise its value is its characters as they stand, which is what they stand for between quotes
exactly if there is no backslash among them; then nothing is refused but substitutions. -/
theorem metadataString_template {source : Text} {t : Token} (ht : t ∈ tokenize source)
    (hkind : t.kind = .template) :
    ∃ inner, t.text = '\x60' :: (inner ++ ['\x60']) ∧
      (∀ c : Cursor, c.peek = some t → (metadataString c).map (·.value) =
        if opensSubstitution inner || escapesSubstitution inner then
          .error ⟨.metadataSubstitution, t.start⟩
        else .ok (String.ofList inner)) ∧
      (opensSubstitution inner = true ↔ ∃ behind,
        ReflTransGen TemplateMove (.text [], inner ++ ['\x60']) (.code 1 [], behind)) ∧
      ('\\' ∉ inner → escapesSubstitution inner = false) ∧
      (opensSubstitution inner = false → (resolved inner = inner ↔ '\\' ∉ inner) ∧
        ∀ quote : Quote, '\n' ∉ inner → quote.char ∉ inner → ∀ state rest,
          lexeme? state (quote.char :: (inner ++ quote.char :: rest)) =
            some (⟨[], quote.char :: (inner ++ [quote.char]),
              .string (String.ofList (resolved inner)), false⟩, rest)) := by
  obtain ⟨inner, htext, hbody⟩ :=
    forall_mem_lexemes (p := fun l => l.kind = .template →
      ∃ inner, l.text = '\x60' :: (inner ++ ['\x60']) ∧ IsTemplateBody inner)
      exists_isTemplateBody _ (toLexeme_mem_lexemes ht) hkind
  refine ⟨inner, htext, fun c hpeek => metadataString_of_template hpeek hkind htext,
    opensSubstitution_iff hbody, escapesSubstitution_of_not_mem, fun hopens => ?_⟩
  have hplain := hbody.templateText hopens
  exact ⟨resolved_eq_self_iff hplain, fun quote hfeed hquote => lexeme?_templateText hplain quote
    hfeed hquote⟩

/-- A template in which a backslash takes a dollar sign along. -/
def escapedTemplate : Token :=
  ⟨⟨[], "\x60\\$\x7bx\x7d\x60".toList, .template, false⟩, 0⟩

/-- It opens no substitution and is refused, and between quotes the same characters are a string. -/
theorem metadataString_template_of_escaped :
    tokenize "\x60\\$\x7bx\x7d\x60".toList = [escapedTemplate] ∧
      escapedTemplate.kind = .template ∧
      opensSubstitution "\\$\x7bx\x7d".toList = false ∧
      (metadataString ⟨none, [escapedTemplate]⟩).map (·.value) = .error ⟨.metadataSubstitution, 0⟩ ∧
      lexeme? .initial "'\\$\x7bx\x7d'".toList =
        some (⟨[], "'\\$\x7bx\x7d'".toList, .string "$\x7bx\x7d", false⟩, []) := by
  have htokens : tokenize "\x60\\$\x7bx\x7d\x60".toList = [escapedTemplate] := by
    simp only [tokenize_eq_upTo]
    cbv
  obtain ⟨inner, htext, hread, -, -, hquoted⟩ :=
    metadataString_template (t := escapedTemplate) (htokens ▸ List.mem_singleton_self _) rfl
  obtain rfl : "\\$\x7bx\x7d".toList = inner := by
    have hinner := congrArg (fun s => s.tail.dropLast) htext
    simpa [escapedTemplate] using hinner
  have hopens : opensSubstitution "\\$\x7bx\x7d".toList = false := by decide
  exact ⟨htokens, rfl, hopens, hread _ rfl,
    (hquoted hopens).2 .single (by decide) (by decide) .initial []⟩

end ScriptBundle
