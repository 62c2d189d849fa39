import ScriptBundle.Proofs.Token.Respacing

/-!
# Scanners on Respaced Texts

Every scanner comes to its end at the same place of respaced texts. One that finds a string or a
regular expression left open at the end of a line stops inside of the white space there, and then
what it leaves is loosely respaced.

## Main definitions

* `StopAlike`: two scans that leave respaced texts.

## Main statements

* `scanBlockComment_respaced`, `scanRegex_respaced`, `scanString_respaced`,
  `scanTemplate_respaced`, `scanTrivia_respaced`: one for each scanner.
-/

namespace ScriptBundle

@[simp] theorem utf8Size_lineFeed : Char.utf8Size '\n' = 1 := rfl

/-- Two scans **stop alike** if they leave respaced texts, or loosely respaced ones where what
they found is not closed. -/
structure StopAlike (fixed : Nat → Bool) (offset : Nat) (closed : Bool) (a : Scan α)
    (b : Scan β) : Prop where
  tight : closed = true → Respaced fixed (offset + Text.size a.taken) a.rest b.rest
  loose : RespacedLoosely fixed (offset + Text.size a.taken) a.rest b.rest

section

variable {fixed : Nat → Bool} {offset : Nat} {s t : Text}

theorem StopAlike.of_respaced {closed : Bool} {a : Scan α} {b : Scan β}
    (h : Respaced fixed (offset + Text.size a.taken) a.rest b.rest) :
    StopAlike fixed offset closed a b :=
  ⟨fun _ => h, h.loosely⟩

theorem StopAlike.of_loosely {a : Scan α} {b : Scan β}
    (h : RespacedLoosely fixed (offset + Text.size a.taken) a.rest b.rest) :
    StopAlike fixed offset false a b :=
  ⟨fun hclosed => by simp at hclosed, h⟩

/-- Scans stop alike whatever was read before. -/
theorem StopAlike.after {closed : Bool} {a : Scan α} {b : Scan β} (front front' : Text)
    (h : StopAlike fixed (offset + Text.size front) closed a b) :
    StopAlike fixed offset closed (a.after front) (b.after front') := by
  obtain ⟨htight, hloose⟩ := h
  rw [Nat.add_assoc] at htight hloose
  exact ⟨by simpa using htight, by simpa using hloose⟩

/-- Scans stop alike whatever their values are. -/
theorem StopAlike.map {closed : Bool} {a : Scan α} {b : Scan β}
    (h : StopAlike fixed offset closed a b) (f : α → γ) (g : β → δ) :
    StopAlike fixed offset closed (a.map f) (b.map g) :=
  ⟨h.tight, h.loose⟩

/-- Characters of a kind that no line feed is of come to their end at the same place. -/
theorem takeWhile_respaced {p : Char → Bool} (hp : p '\n' = false)
    (h : Respaced fixed offset s t) :
    t.takeWhile p = s.takeWhile p ∧
      Respaced fixed (offset + Text.size (s.takeWhile p)) (s.dropWhile p) (t.dropWhile p) := by
  induction h with
  | nil offset => exact ⟨rfl, .nil _⟩
  | @cons offset s t c h ih =>
    by_cases hc : p c = true
    · simpa [hc, Nat.add_assoc] using ih
    · simpa [hc] using Respaced.cons c h
  | gap hmovable hbefore hafter hfeeds h =>
    simpa [hp] using Respaced.gap hmovable hbefore hafter hfeeds h

/-- A line comes to its end at the same place. -/
theorem scanLine_respaced (h : Respaced fixed offset s t) :
    StopAlike fixed offset true (scanLine s) (scanLine t) :=
  .of_respaced (takeWhile_respaced (p := (· ≠ '\n')) (by decide) h).2

/-- A block comment is closed at the same place. -/
theorem scanBlockComment_respaced (h : Respaced fixed offset s t) :
    (scanBlockComment t).value = (scanBlockComment s).value ∧
      StopAlike fixed offset true (scanBlockComment s) (scanBlockComment t) := by
  induction hlength : s.length using Nat.strongRecOn generalizing offset s t with
  | _ n ih =>
    cases s with
    | nil =>
      obtain rfl := h.eq_nil
      exact ⟨rfl, .of_respaced h⟩
    | cons c s =>
      obtain ⟨t', rfl, hrest⟩ | ⟨before, after, s', t', rfl, rfl, rfl, -, hbefore, hafter, -,
        hrest⟩ := h.cons_inv
      · by_cases hclose : c = '*' ∧ s.head? = some '/'
        · obtain ⟨rfl, hhead⟩ := hclose
          obtain ⟨s', rfl⟩ := List.head?_eq_some_iff.mp hhead
          obtain ⟨t'', rfl, hbehind⟩ := hrest.cons_of_ne (by decide)
          exact ⟨rfl, .of_respaced (by simpa [scanBlockComment, Nat.add_assoc] using hbehind)⟩
        · rw [scanBlockComment_cons fun hc hhead => hclose ⟨hc, hhead⟩,
            scanBlockComment_cons fun hc hhead => hclose ⟨hc, hrest.head? ▸ hhead⟩]
          have hlt : s.length < n := by simp [← hlength]
          obtain ⟨hvalue, hstop⟩ := ih _ hlt hrest rfl
          exact ⟨by simp [hvalue], (hstop.map _ _).after [c] _⟩
      · have hlt : s'.length < n := by
          rw [← hlength, List.length_cons, List.length_append]
          omega
        obtain ⟨hvalue, hstop⟩ := ih _ hlt hrest rfl
        obtain ⟨crosses, hs⟩ := scanBlockComment_blank hbefore s'
        obtain ⟨crosses', ht⟩ := scanBlockComment_blank hafter t'
        rw [scanBlockComment_cons fun hc => absurd hc (by decide),
          scanBlockComment_cons fun hc => absurd hc (by decide), hs, ht]
        exact ⟨by simp [hvalue], (((hstop.map _ _).after before _).map _ _).after ['\n'] _⟩

/-- The body of a regular expression is closed at the same place. -/
theorem scanRegexBody_respaced (h : Respaced fixed offset s t) (inClass : Bool) :
    (scanRegexBody inClass t).value = (scanRegexBody inClass s).value ∧
      StopAlike fixed offset (scanRegexBody inClass s).value (scanRegexBody inClass s)
        (scanRegexBody inClass t) := by
  induction hlength : s.length using Nat.strongRecOn generalizing offset s t inClass with
  | _ n ih =>
    cases s with
    | nil =>
      obtain rfl := h.eq_nil
      exact ⟨rfl, .of_respaced h⟩
    | cons c s =>
      by_cases hfeed : c = '\n'
      · subst hfeed
        obtain ⟨t', rfl, hrest⟩ := h.lineFeed_inv
        rw [scanRegexBody_cons (by decide), scanRegexBody_cons (by decide), if_pos rfl, if_pos rfl]
        exact ⟨rfl, .of_loosely hrest⟩
      · obtain ⟨t', rfl, hrest⟩ := h.cons_of_ne hfeed
        by_cases hback : c = '\\'
        · subst hback
          cases s with
          | nil =>
            obtain rfl := hrest.eq_nil
            exact ⟨rfl, .of_respaced hrest⟩
          | cons d s =>
            obtain ⟨t', rfl, hnext⟩ | ⟨before, after, s', t', rfl, rfl, rfl, -, hbefore, hafter,
              hfeeds, hnext⟩ := hrest.cons_inv
            · have hlt : s.length < n := by
                rw [← hlength, List.length_cons, List.length_cons]
                omega
              obtain ⟨hvalue, hstop⟩ := ih _ hlt hnext inClass rfl
              rw [scanRegexBody, scanRegexBody]
              exact ⟨hvalue, .after ['\\', d] _ (by simpa [Nat.add_assoc] using hstop)⟩
            · rw [scanRegexBody, scanRegexBody]
              by_cases hmem : '\n' ∈ before
              · obtain ⟨front, behind, hs, hscan⟩ :=
                  scanRegexBody_blank_lineFeed hbefore s' hmem inClass
                obtain ⟨front', behind', ht, hscan'⟩ :=
                  scanRegexBody_blank_lineFeed hafter t' (hfeeds.mp hmem) inClass
                subst hs ht
                rw [hscan, hscan']
                refine ⟨rfl, .after ['\\', '\n'] _ (.of_loosely ?_)⟩
                exact ⟨behind, behind', s', t', hbefore.of_append_right, hafter.of_append_right,
                  rfl, rfl, by simpa [Nat.add_assoc] using hnext⟩
              · have hlt : s'.length < n := by
                  rw [← hlength, List.length_cons, List.length_cons, List.length_append]
                  omega
                obtain ⟨hvalue, hstop⟩ := ih _ hlt hnext inClass rfl
                rw [scanRegexBody_blank hbefore s' hmem,
                  scanRegexBody_blank hafter t' (fun hm => hmem (hfeeds.mpr hm))]
                refine ⟨hvalue, .after ['\\', '\n'] _ (.after before _ ?_)⟩
                simpa [Nat.add_assoc] using hstop
        · rw [scanRegexBody_cons hback, scanRegexBody_cons hback, if_neg hfeed, if_neg hfeed]
          have hlt : s.length < n := by simp [← hlength]
          split
          · next hclose =>
            obtain ⟨rfl, -⟩ : c = '/' ∧ inClass = false := by simpa using hclose
            exact ⟨rfl, .of_respaced (by simpa using hrest)⟩
          · split
            · obtain ⟨hvalue, hstop⟩ := ih _ hlt hrest true rfl
              exact ⟨hvalue, hstop.after [c] _⟩
            · split
              · obtain ⟨hvalue, hstop⟩ := ih _ hlt hrest false rfl
                exact ⟨hvalue, hstop.after [c] _⟩
              · obtain ⟨hvalue, hstop⟩ := ih _ hlt hrest inClass rfl
                exact ⟨hvalue, hstop.after [c] _⟩

/-- A regular expression is closed at the same place, and its flags are the same. -/
theorem scanRegex_respaced (h : Respaced fixed offset s t) :
    (scanRegex t).value = (scanRegex s).value ∧
      StopAlike fixed offset (scanRegex s).value (scanRegex s) (scanRegex t) := by
  obtain ⟨hvalue, hstop⟩ := scanRegexBody_respaced h false
  cases hclosed : (scanRegexBody false s).value with
  | false =>
    rw [hclosed] at hstop hvalue
    simp only [scanRegex, hclosed, hvalue, Bool.false_eq_true, if_false]
    exact ⟨trivial, hstop⟩
  | true =>
    obtain ⟨-, hflags⟩ := takeWhile_respaced (p := isIdentifierPart) (by decide)
      (hstop.tight hclosed)
    rw [hclosed] at hvalue
    simp only [scanRegex, hclosed, hvalue, if_true]
    exact ⟨trivial, .of_respaced (by simpa [Nat.add_assoc] using hflags)⟩

/-- A string is closed at the same place. -/
theorem scanString_respaced (h : Respaced fixed offset s t) {quote : Char}
    (hquote : isBlank quote = false) :
    (scanString quote t).value.isSome = (scanString quote s).value.isSome ∧
      StopAlike fixed offset (scanString quote s).value.isSome (scanString quote s)
        (scanString quote t) := by
  induction hlength : s.length using Nat.strongRecOn generalizing offset s t with
  | _ n ih =>
    cases s with
    | nil =>
      obtain rfl := h.eq_nil
      exact ⟨rfl, .of_respaced h⟩
    | cons c s =>
      by_cases hfeed : c = '\n'
      · subst hfeed
        obtain ⟨t', rfl, hrest⟩ := h.lineFeed_inv
        rw [scanString_cons (by decide), scanString_cons (by decide), if_pos rfl, if_pos rfl]
        exact ⟨rfl, .of_loosely hrest⟩
      · obtain ⟨t', rfl, hrest⟩ := h.cons_of_ne hfeed
        by_cases hback : c = '\\'
        · subst hback
          cases s with
          | nil =>
            obtain rfl := hrest.eq_nil
            exact ⟨rfl, .of_respaced hrest⟩
          | cons d s =>
            obtain ⟨t', rfl, hnext⟩ | ⟨before, after, s', t', rfl, rfl, rfl, -, hbefore, hafter,
              hfeeds, hnext⟩ := hrest.cons_inv
            · have hlt : s.length < n := by
                rw [← hlength, List.length_cons, List.length_cons]
                omega
              obtain ⟨hvalue, hstop⟩ := ih _ hlt hnext rfl
              rw [scanString, scanString]
              refine ⟨by simpa using hvalue, .after ['\\', d] _ (.map ?_ _ _)⟩
              simpa [Nat.add_assoc] using hstop
            · rw [scanString, scanString]
              by_cases hmem : '\n' ∈ before
              · obtain ⟨front, behind, hs, hscan⟩ :=
                  scanString_blank_lineFeed hbefore s' hmem hquote
                obtain ⟨front', behind', ht, hscan'⟩ :=
                  scanString_blank_lineFeed hafter t' (hfeeds.mp hmem) hquote
                subst hs ht
                rw [hscan, hscan']
                refine ⟨rfl, .after ['\\', '\n'] _ (.map (.of_loosely ?_) _ _)⟩
                exact ⟨behind, behind', s', t', hbefore.of_append_right, hafter.of_append_right,
                  rfl, rfl, by simpa [Nat.add_assoc] using hnext⟩
              · have hlt : s'.length < n := by
                  rw [← hlength, List.length_cons, List.length_cons, List.length_append]
                  omega
                obtain ⟨hvalue, hstop⟩ := ih _ hlt hnext rfl
                rw [scanString_blank hbefore s' hmem hquote,
                  scanString_blank hafter t' (fun hm => hmem (hfeeds.mpr hm)) hquote]
                refine ⟨by simpa using hvalue,
                  .after ['\\', '\n'] _ (.map (.after before _ (.map ?_ _ _)) _ _)⟩
                simpa [Nat.add_assoc] using hstop
        · rw [scanString_cons hback, scanString_cons hback, if_neg hfeed, if_neg hfeed]
          by_cases hclose : c = quote
          · rw [if_pos hclose, if_pos hclose]
            exact ⟨rfl, .of_respaced (by simpa using hrest)⟩
          · rw [if_neg hclose, if_neg hclose]
            have hlt : s.length < n := by simp [← hlength]
            obtain ⟨hvalue, hstop⟩ := ih _ hlt hrest rfl
            refine ⟨by simpa using hvalue, .after [c] _ (.map ?_ _ _)⟩
            simpa using hstop

/-- A step of the scanner of a template is made in a respaced text, too. -/
theorem TemplateStep.respaced {state next : TemplateState} {front rest : Text} {crosses : Bool}
    (hstep : TemplateStep state s front crosses next rest) (h : Respaced fixed offset s t) :
    ∃ front' rest', TemplateStep state t front' crosses next rest' ∧
      RespacedLoosely fixed (offset + Text.size front) rest rest' := by
  cases hstep with
  | outward depth outer =>
    obtain ⟨t, rfl, hrest⟩ := h.cons_loosely
    exact ⟨_, t, .outward depth outer t, hrest⟩
  | escape outer d =>
    obtain ⟨t, rfl, htight⟩ := h.cons_of_ne (by decide)
    obtain ⟨t, rfl, hrest⟩ := htight.cons_loosely
    exact ⟨_, t, .escape outer d t, by simpa [Nat.add_assoc] using hrest⟩
  | substitution outer =>
    obtain ⟨t, rfl, htight⟩ := h.cons_of_ne (by decide)
    obtain ⟨t, rfl, hrest⟩ := htight.cons_loosely
    exact ⟨_, t, .substitution outer t, by simpa [Nat.add_assoc] using hrest⟩
  | character outer tick back plain =>
    obtain ⟨t, rfl, hrest⟩ := h.cons_loosely
    exact ⟨_, t, .character outer tick back (mt h.startsSubstitution_iff.mp plain), hrest⟩
  | inward depth outer =>
    obtain ⟨t, rfl, hrest⟩ := h.cons_loosely
    exact ⟨_, t, .inward depth outer t, hrest⟩
  | lineComment depth outer =>
    obtain ⟨t, rfl, htight⟩ := h.cons_of_ne (by decide)
    obtain ⟨t, rfl, hnext⟩ := htight.cons_of_ne (by decide)
    exact ⟨_, _, .lineComment depth outer t,
      by simpa [Nat.add_assoc] using (scanLine_respaced hnext).loose⟩
  | blockComment depth outer =>
    obtain ⟨t, rfl, htight⟩ := h.cons_of_ne (by decide)
    obtain ⟨t, rfl, hnext⟩ := htight.cons_of_ne (by decide)
    obtain ⟨hvalue, hstop⟩ := scanBlockComment_respaced hnext
    rw [← hvalue]
    exact ⟨_, _, .blockComment depth outer t, by simpa [Nat.add_assoc] using hstop.loose⟩
  | quoted depth outer c rest quote =>
    have hblank : isBlank c = false := by rcases quote with rfl | rfl <;> decide
    obtain ⟨t, rfl, hrest⟩ := h.cons_of_ne (by rcases quote with rfl | rfl <;> decide)
    exact ⟨_, _, .quoted depth outer c t quote,
      by simpa [Nat.add_assoc] using (scanString_respaced hrest hblank).2.loose⟩
  | code depth outer tick comment quote =>
    obtain ⟨t, rfl, hrest⟩ := h.cons_loosely
    exact ⟨_, t, .code depth outer tick (mt h.startsComment_iff.mp comment) quote, hrest⟩

/-- A template is closed at the same place. -/
theorem scanTemplate_respaced (h : Respaced fixed offset s t) (state : TemplateState) :
    (scanTemplate state t).value = (scanTemplate state s).value ∧
      StopAlike fixed offset true (scanTemplate state s) (scanTemplate state t) := by
  induction hlength : s.length using Nat.strongRecOn generalizing offset s t state with
  | _ n ih =>
    cases templateFront state s with
    | closing rest hstate hs =>
      subst hstate hs
      obtain ⟨t, rfl, hrest⟩ := h.cons_of_ne (by decide)
      rw [scanTemplate, scanTemplate]
      exact ⟨rfl, .of_respaced hrest⟩
    | nothing hs =>
      subst hs
      obtain rfl := h.eq_nil
      rw [scanTemplate]
      exact ⟨rfl, .of_respaced h⟩
    | backslash outer hstate hs =>
      subst hstate hs
      obtain ⟨t, rfl, hrest⟩ := h.cons_of_ne (by decide)
      obtain rfl := hrest.eq_nil
      rw [scanTemplate]
      exact ⟨rfl, .of_respaced hrest⟩
    | @step front crosses next rest hstep =>
      obtain ⟨front', rest', hstep', before, after, s', t', hbefore, hafter, rfl, rfl, hrest⟩ :=
        hstep.respaced h
      have hlt : s'.length < n := by
        have hlt := hstep.length_lt
        rw [List.length_append] at hlt
        omega
      obtain ⟨hvalue, hstop⟩ := ih _ hlt hrest next rfl
      rw [hstep.scan, hstep'.scan, scanTemplate_blank hbefore, scanTemplate_blank hafter]
      exact ⟨by simp [hvalue], .after front _ (.map (.after before _ hstop) _ _)⟩

/-- Trivia come to their end at the same place. -/
theorem scanTrivia_respaced (h : Respaced fixed offset s t) :
    (scanTrivia t).value = (scanTrivia s).value ∧
      StopAlike fixed offset true (scanTrivia s) (scanTrivia t) := by
  induction hlength : s.length using Nat.strongRecOn generalizing offset s t with
  | _ n ih =>
    cases s with
    | nil =>
      obtain rfl := h.eq_nil
      rw [scanTrivia]
      exact ⟨rfl, .of_respaced h⟩
    | cons c s =>
      by_cases hcomment : startsComment c s
      · obtain ⟨rfl, hhead⟩ := hcomment
        obtain ⟨t', rfl, hrest⟩ := h.cons_of_ne (by decide)
        rcases hhead with hhead | hhead
        · obtain ⟨s, rfl⟩ := List.head?_eq_some_iff.mp hhead
          obtain ⟨t, rfl, hnext⟩ := hrest.cons_of_ne (by decide)
          have hline := (scanLine_respaced hnext).tight rfl
          have hlt : (scanLine s).rest.length < n := by
            have := scanLine_length s
            simp only [← hlength, List.length_cons]
            omega
          obtain ⟨hvalue, hstop⟩ := ih _ hlt hline rfl
          rw [scanTrivia, scanTrivia]
          exact ⟨hvalue, .after ('/' :: '/' :: (scanLine s).taken) _
            (by simpa [Nat.add_assoc] using hstop)⟩
        · obtain ⟨s, rfl⟩ := List.head?_eq_some_iff.mp hhead
          obtain ⟨t, rfl, hnext⟩ := hrest.cons_of_ne (by decide)
          obtain ⟨hcvalue, hcstop⟩ := scanBlockComment_respaced hnext
          have hlt : (scanBlockComment s).rest.length < n := by
            have := scanBlockComment_length s
            simp only [← hlength, List.length_cons]
            omega
          obtain ⟨hvalue, hstop⟩ := ih _ hlt (hcstop.tight rfl) rfl
          rw [scanTrivia, scanTrivia]
          exact ⟨by simp [hvalue, hcvalue],
            .after ('/' :: '*' :: (scanBlockComment s).taken) _
              (.map (by simpa [Nat.add_assoc] using hstop) _ _)⟩
      · obtain ⟨t', rfl, hrest⟩ | ⟨before, after, s', t', rfl, rfl, rfl, -, hbefore, hafter, -,
          hrest⟩ := h.cons_inv
        · rw [scanTrivia_cons hcomment, scanTrivia_cons (mt h.startsComment_iff.mp hcomment)]
          split
          · obtain ⟨hvalue, hstop⟩ := ih _ (by simp [← hlength]) hrest rfl
            exact ⟨by simp [hvalue], .after [c] _ (.map hstop _ _)⟩
          · exact ⟨rfl, .of_respaced h⟩
        · have hlt : s'.length < n := by
            rw [← hlength, List.length_cons, List.length_append]
            omega
          obtain ⟨crosses, hs⟩ := scanTrivia_blank hbefore s'
          obtain ⟨crosses', ht⟩ := scanTrivia_blank hafter t'
          obtain ⟨hvalue, hstop⟩ := ih _ hlt hrest rfl
          rw [scanTrivia_cons hcomment, scanTrivia_cons (mt h.startsComment_iff.mp hcomment),
            if_pos (by decide), if_pos (by decide), hs, ht]
          refine ⟨?_, .after ['\n'] _ (.map (.after before _ (.map hstop _ _)) _ _)⟩
          simp [isLineEnd]

end

end ScriptBundle
