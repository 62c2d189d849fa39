import ScriptBundle.Shell.Regex.Basic

/-!
# Editing Commands

The commands of the program `sed`, which edits texts line by line.

## Main definitions

* `LineAddress`: tells lines apart;
* `Replacement`, `Substitution`: what takes the place of parts of a line;
* `EditAction`: what is done to lines;
* `EditCommand`: an action with the lines that it is for.

## Main statements

* `Replacement.render_text`: a text stands for itself.
-/

namespace ScriptBundle.Shell

/-- A **line address** tells some lines from others. -/
inductive LineAddress where
  | number (n : Nat)
  /-- Every so many lines from a line on. -/
  | every (first step : Nat)
  | last
  /-- The lines with a part that has the form of an expression, or else of the last one used. -/
  | having (r : Option Regex)
  /-- So many lines further. -/
  | further (n : Nat)
  /-- The next line whose number is a multiple. -/
  | multiple (n : Nat)
  deriving DecidableEq, Repr

/-- How the case of letters is changed. -/
inductive LetterCase where
  | upper
  | lower
  deriving DecidableEq, Repr

/-- A letter in another case. -/
def LetterCase.apply : LetterCase → Char → Char
  | upper, c => c.toUpper
  | lower, c => c.toLower

/-- A part of what takes the place of something. -/
inductive ReplacementPart where
  | text (s : Text)
  /-- What a group stands for, or all of it for the group zero. -/
  | group (index : Nat)
  /-- From here on, letters have a certain case, or their own. -/
  | letters (c : Option LetterCase)
  /-- The next letter has a certain case. -/
  | letter (c : LetterCase)
  deriving DecidableEq, Repr

/-- What takes the **place** of something. -/
abbrev Replacement := List ReplacementPart

namespace Replacement

/-- A text in the cases that are asked for: those of all letters and of the next one. -/
def cased (all next : Option LetterCase) : Text → Text
  | [] => []
  | c :: rest =>
    let first := match next, all with
      | some letterCase, _ => letterCase.apply c
      | none, some letterCase => letterCase.apply c
      | none, none => c
    first :: rest.map fun c => (all.map (·.apply c)).getD c

/-- The text that a replacement amounts to, given what the groups stand for. -/
def renderFrom (groups : List (Nat × Text)) (all next : Option LetterCase) : Replacement → Text
  | [] => []
  | .letters all :: rest => renderFrom groups all none rest
  | .letter next :: rest => renderFrom groups all (some next) rest
  | .text s :: rest =>
    cased all next s ++ renderFrom groups all (if s.isEmpty then next else none) rest
  | .group index :: rest =>
    let s := (groups.lookup index).getD []
    cased all next s ++ renderFrom groups all (if s.isEmpty then next else none) rest

/-- The text that a replacement amounts to, given what the groups stand for. -/
def render (groups : List (Nat × Text)) (r : Replacement) : Text := renderFrom groups none none r

/-- A text stands for itself. -/
theorem render_text (groups : List (Nat × Text)) (s : Text) :
    render groups [.text s] = s := by
  cases s <;> simp [render, renderFrom, cased]

end Replacement

/-- A **substitution**: which parts of a line are replaced, and by what. -/
structure Substitution where
  /-- The form of the parts, or else the one last used. -/
  form : Option Regex
  replacement : Replacement
  /-- The first part that is replaced, counted from one. -/
  first : Nat := 1
  /-- Whether the parts behind it are replaced too. -/
  isGlobal : Bool := false
  isPrinted : Bool := false
  /-- The file that the line is written to. -/
  file : Option Text := none
  deriving DecidableEq, Repr

/-- When a jump is made. -/
inductive JumpTest where
  | always
  /-- If something was replaced. -/
  | replaced
  | unreplaced
  deriving DecidableEq, Repr

/-- What is **done** to lines. -/
inductive EditAction where
  | opening
  | closing
  | mark (label : Text)
  | jump (test : JumpTest) (label : Text)
  | append (text : Text)
  | insert (text : Text)
  | change (text : Text)
  | quit (isPrinted : Bool) (status : Nat)
  | list (width : Option Nat)
  | readFile (file : Text)
  | writeFile (file : Text)
  | writeFirst (file : Text)
  | substitute (s : Substitution)
  | exchange (pairs : List (Char × Char))
  | showNumber
  | showFile
  | delete
  | deleteFirst
  | recall
  | recallMore
  | hold
  | holdMore
  | swap
  | next
  | nextMore
  | print
  | printFirst
  | clear
  deriving DecidableEq, Repr

/-- An action with the lines that it is for. -/
structure EditCommand where
  /-- The place of the command among all. -/
  index : Nat := 0
  first : Option LineAddress := none
  second : Option LineAddress := none
  /-- Whether it is for the other lines. -/
  isNegated : Bool := false
  action : EditAction
  deriving DecidableEq, Repr

namespace Substitution

/-- Replaces parts of a text. `before` is the character in front of it, `count` the number of the
parts that were found there. An empty part directly behind another one does not count. -/
def applyFrom (s : Substitution) (r : Regex) :
    (budget : Nat) → (before : Option Char) → (count : Nat) → (isBehindPart : Bool) → Text →
      Bool × Text
  | 0, _, _, _, rest => (false, rest)
  | n + 1, before, count, isBehindPart, rest =>
    let skipOne (count : Nat) (rest : Text) : Bool × Text :=
      match rest with
      | [] => (false, [])
      | c :: rest =>
        let (isReplaced, text) := applyFrom s r n (some c) count false rest
        (isReplaced, c :: text)
    match r.find? before rest with
    | none => (false, rest)
    | some (start, size) =>
      if size = 0 ∧ start = 0 ∧ isBehindPart then skipOne count rest
      else
        let front := rest.take start
        let part := (rest.drop start).take size
        let behind := rest.drop (start + size)
        let isChosen := s.first = count + 1 || (s.isGlobal && s.first ≤ count)
        let groups := (0, part) :: r.groups (front.getLast?.or before) behind.head? part
        let shown := if isChosen then s.replacement.render groups else part
        if isChosen && !s.isGlobal then (true, front ++ shown ++ behind)
        else
          let (isReplaced, text) := if size = 0 then skipOne (count + 1) behind
            else applyFrom s r n part.getLast? (count + 1) true behind
          (isChosen || isReplaced, front ++ shown ++ text)

/-- Replaces parts of a text that have the form of an expression, and tells whether any was. -/
def apply (s : Substitution) (r : Regex) (text : Text) : Bool × Text :=
  s.applyFrom r (2 * text.length + 2) none 0 false text

end Substitution

end ScriptBundle.Shell
