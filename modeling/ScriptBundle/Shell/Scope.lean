import ScriptBundle.Shell.Expansion
import ScriptBundle.Shell.Signal
import ScriptBundle.Text.Blank

/-!
# Scopes

Steps of a script that leave a part of the state as it was: steps whose output is collected, steps
that do not change the variables around them, and steps with redirections of their own.

## Main definitions

* `Action.settle`: runs a step and tells how it was left;
* `Action.keeping`: runs a step and puts back a part of the state;
* `Action.isolated`, `Action.captured`: steps apart from those around them;
* `Action.withRedirections`: a step with redirections.

## Main statements

* `Action.keeping_state`: what is put back is put back however the step is left.
-/

namespace ScriptBundle.Shell.Action

/-- Runs a step, and tells by which jump it was left, if by any. -/
def settle (body : Action Unit) : Action (Option Jump) := fun s =>
  match body s with
  | (.ok _, after) => (.ok none, after)
  | (.error jump, after) => (.ok (some jump), after)

/-- Runs a step, and makes a state out of the one before it and the one behind it. -/
def keeping (restored : (before after : ShellState) → ShellState) (body : Action α) : Action α :=
  fun before =>
    match body before with
    | (result, after) => (result, restored before after)

/-- What is put back is put back however the step is left. -/
theorem keeping_state (restored : ShellState → ShellState → ShellState) (body : Action α)
    (before : ShellState) :
    ((keeping restored body) before).2 = restored before (body before).2 := rfl

/-- Runs a step whose complaints start in a certain way. -/
def labelled (label : Text) (body : Action α) : Action α :=
  keeping (fun before after => { after with label := before.label }) do
    modify fun s => { s with label }
    body

/-- The status of the last command. -/
def status : Action Nat := do
  return (← get).status

/-! ### Apart from the steps around -/

/-- Lets the signals that were sent to a script reach it, unless what is run is apart from it. A
signal that is not caught may end the script. -/
def receive : Action Unit := do
  let s ← get
  if !s.isApart then
    let (own, others) := s.sent.partition (·.1 == s.number)
    set { s with sent := others }
    own.forM fun (_, number) => do
      match (← get).traps.lookup number with
      | some script =>
        if number = 9 then
          setStatus (128 + number)
          throw .killed
        else if !script.isEmpty then
          modify fun s => { s with caught := s.caught.filter (· != number) ++ [number] }
      | none =>
        if Signal.ends number then
          setStatus (128 + number)
          throw .killed

/-- Runs a step and then the script that was to be run at the end. -/
def finishing (runScript : Text → Action Unit) (body : Action Unit) : Action (Option Jump) := do
  let jump ← settle body
  match jump, (← get).traps.lookup 0 with
  | some .killed, _ => return jump
  | _, none => return jump
  | _, some script =>
    let status ← status
    modify fun s => { s with
      traps := s.traps.filter (·.1 != 0), interrupted := some status }
    match ← settle (runScript script) with
    | none => setStatus status
    | some .killed => return some .killed
    | some _ => pure ()
    return jump

/-- What ignores signals, and not the end. -/
def ignoredTraps (traps : List (Nat × Text)) : List (Nat × Text) :=
  traps.filter fun (number, script) => number != 0 && script.isEmpty

/-- Runs a step apart from the steps around it, which see what it wrote and its status. -/
def isolated (runScript : Text → Action Unit) (body : Action Unit) : Action Unit := do
  let before ← get
  set { before with traps := ignoredTraps before.traps, caught := [], isApart := true }
  let _ ← finishing runScript body
  let after ← get
  set { before with
    tree := { after.tree with workingDirectory := before.tree.workingDirectory }
    buffers := after.buffers
    sources := after.sources
    permissions := after.permissions
    status := after.status % 256
    sent := after.sent
    lastNumber := after.lastNumber
    signal := after.signal }
  receive

/-- Runs a step apart from the steps around it, and collects its output. -/
def captured (runScript : Text → Action Unit) (body : Action Unit) : Action (List UInt8) := do
  let before ← get
  let index := before.buffers.length
  set ({ before with buffers := before.buffers ++ [[]] }.redirect 1 (some (.buffer index)))
  keeping (fun _ after =>
      { after with channels := before.channels, buffers := after.buffers.take index }) do
    isolated runScript body
    return ((← get).buffers[index]?).getD []

/-- The output of a step as a text, without the line feeds at its end. -/
def capturedText (runScript : Text → Action Unit) (body : Action Unit) : Action Text := do
  let before ← status
  let bytes ← captured runScript body
  modify fun s => { s with substituted := some s.status, status := before }
  let text := (byteText bytes).filter (· ≠ '\x00')
  return Text.trimEndOf '\n' text

/-! ### Redirections -/

/-- Applies a redirection, and tells whether that was possible. -/
def applyRedirection (capture : Nat → Text → Action Text) (r : Redirection) : Action Bool := do
  let target ← expandText capture r.target
  let s ← get
  match r.kind with
  | .input => readFromFile r.descriptor target
  | .output =>
    let isKept := match s.tree.node? (scriptPath target) with
      | some (.file _) => s.isOn "noclobber"
      | _ => false
    if isKept then
      complain ("cannot create ".toList ++ target ++ ": File exists".toList) 2
      return false
    else redirectToFile r.descriptor target false
  | .overwrite => redirectToFile r.descriptor target false
  | .append => redirectToFile r.descriptor target true
  | .document =>
    set (s.openSource r.descriptor ⟨textBytes target, false⟩)
    return true
  | .duplicate =>
    if target = ['-'] then
      set (s.redirect r.descriptor none)
      return true
    else
      match Text.number? 10 target with
      | some n =>
        match s.channels.lookup n with
        | some channel =>
          set (s.redirect r.descriptor (some channel))
          return true
        | none =>
          complain (target ++ ": Bad file descriptor".toList) 2
          return false
      | none => abort "Syntax error: Bad fd number".toList

/-- Applies redirections, and tells whether that was possible. -/
def applyRedirections (capture : Nat → Text → Action Text) : List Redirection → Action Bool
  | [] => return true
  | r :: rest => do
    if ← applyRedirection capture r then applyRedirections capture rest else return false

/-- The state behind a step with redirections: the descriptors lead where they led before. -/
def withoutRedirections (before after : ShellState) : ShellState :=
  { after with channels := before.channels }

/-- Runs a step with redirections, unless they are not possible, and tells whether they were. -/
def withRedirections (capture : Nat → Text → Action Text) (rs : List Redirection)
    (body : Action Unit) : Action Bool :=
  keeping withoutRedirections do
    if ← applyRedirections capture rs then
      body
      return true
    else return false

end ScriptBundle.Shell.Action
