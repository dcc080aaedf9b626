import SiteScrape.Pattern.Reading

/-!
# Matching patterns

A pattern is compiled to a program of steps and run with one thread per step,
so the time is bounded by the size of the program times the length of the
text. Threads are kept in order of preference: the earliest start wins, then
the first alternative and the greedier repetition.
-/

namespace SiteScrape.Pattern

/-- One step of a program; numbers are the indices of the next steps. -/
inductive Step where
  | chars (s : CharSet) (next : Nat)
  | look (l : Look) (next : Nat)
  /-- Goes on with `first`, or else with `second`. -/
  | split (first second : Nat)
  | save (slot next : Nat)
  | accept

/-- A program under construction; step 0 accepts. -/
abbrev Program := Array Step

/-- Adds a step: the program, and where the step stands. -/
def Program.add (p : Program) (s : Step) : Program × Nat := (p.push s, p.size)

/-- A choice that tries `inner` first if it is greedy. -/
def choose (greedy : Bool) (inner outer : Nat) : Step :=
  if greedy then .split inner outer else .split outer inner

/-- Programs that outgrow this size stop growing and are refused afterwards. -/
def sizeLimit : Nat := 200000

/-- A way of adding the steps of one term in front of a step. -/
abbrev Emit := Program → Nat → Program × Nat

/-- The term `times` times in a row. -/
def emitTimes (body : Emit) (p : Program) (next : Nat) : Nat → Program × Nat
  | 0 => (p, next)
  | times + 1 =>
    if p.size > sizeLimit then (p, next)
    else
      let (p, next) := body p next
      emitTimes body p next times

/-- The term at most `times` times in a row; leaving goes to `out`. -/
def emitOptional (body : Emit) (greedy : Bool) (out : Nat) (p : Program) (next : Nat) :
    Nat → Program × Nat
  | 0 => (p, next)
  | times + 1 =>
    if p.size > sizeLimit then (p, next)
    else
      let (p, start) := body p next
      let (p, here) := Program.add p (choose greedy start out)
      emitOptional body greedy out p here times

/-- The term any number of times. -/
def emitLoop (body : Emit) (fitsEmpty greedy : Bool) (min : Nat) (p : Program) (next : Nat) :
    Program × Nat :=
  let (p, loop) := Program.add p .accept
  let (p, start) := body p loop
  let p := p.setIfInBounds loop (choose greedy start next)
  if min > 0 then emitTimes body p start (min - 1)
  else if fitsEmpty then Program.add p (choose greedy start next)
  else (p, loop)

mutual

/-- Adds the steps of a term that goes on at `next`: the program, and where the
term starts. -/
def emit (p : Program) (next : Nat) : Node → Program × Nat
  | .empty => (p, next)
  | .chars s => Program.add p (.chars s next)
  | .look l => Program.add p (.look l next)
  | .sequence parts => emitSequence p next parts
  | .choice parts => emitChoice p next parts
  | .group i body =>
    let (p, stop) := Program.add p (.save (2 * i + 1) next)
    let (p, start) := emit p stop body
    Program.add p (.save (2 * i) start)
  | .repetition min max greedy body =>
    match max with
    | some max =>
      let (p, next) :=
        emitOptional (fun p n => emit p n body) greedy next p next (max - min)
      emitTimes (fun p n => emit p n body) p next min
    | none => emitLoop (fun p n => emit p n body) body.fitsEmpty greedy min p next

def emitSequence (p : Program) (next : Nat) : List Node → Program × Nat
  | [] => (p, next)
  | n :: rest =>
    let (p, next) := emitSequence p next rest
    emit p next n

def emitChoice (p : Program) (next : Nat) : List Node → Program × Nat
  | [] => (p, next)
  | [n] => emit p next n
  | n :: rest =>
    let (p, second) := emitChoice p next rest
    let (p, first) := emit p next n
    Program.add p (.split first second)

end

/-- A compiled pattern. -/
structure Compiled where
  program : Program
  start : Nat
  slots : Nat

/-- The compiled form of a pattern text, if it is one. -/
def compile? (s : String) : Option Compiled := do
  let source ← read? s
  let (p, start) := emit #[.accept] 0 (.group 0 source.root)
  if p.size > sizeLimit then none
  else some ⟨p, start, 2 * (source.captures + 1)⟩

/-- Positions of group ends, by slot. -/
abbrev Slots := Array (Option Nat)

/-- Threads in order of preference, and the steps that already have one. -/
structure Threads where
  list : List (Nat × Slots)
  seen : Array Bool

/-- Follows steps that take no character. `todo` is the stack of steps to visit,
most preferred first; `list` collects threads in reverse. -/
def follow (program : Program) (before after : Option Char) (position : Nat) :
    Nat → List (Nat × Slots) → Threads → Threads
  | 0, _, ts => ts
  | _ + 1, [], ts => ts
  | fuel + 1, (i, slots) :: todo, ts =>
    if ts.seen.getD i true then follow program before after position fuel todo ts
    else
      let ts := { ts with seen := ts.seen.setIfInBounds i true }
      match program[i]? with
      | some (.split a b) =>
        follow program before after position fuel ((a, slots) :: (b, slots) :: todo) ts
      | some (.look l next) =>
        if l.holds before after then
          follow program before after position fuel ((next, slots) :: todo) ts
        else follow program before after position fuel todo ts
      | some (.save slot next) =>
        follow program before after position fuel
          ((next, slots.setIfInBounds slot (some position)) :: todo) ts
      | some _ => follow program before after position fuel todo
          { ts with list := (i, slots) :: ts.list }
      | none => follow program before after position fuel todo ts

/-- The threads of one position and the best match so far. -/
structure RunState where
  threads : List (Nat × Slots)
  best : Option Slots

/-- The threads up to the first one that accepts, and its slots. -/
def acceptFirst (program : Program) : List (Nat × Slots) → List (Nat × Slots) × Option Slots
  | [] => ([], none)
  | (i, slots) :: rest =>
    match program[i]? with
    | some .accept => ([], some slots)
    | _ =>
      let (kept, found) := acceptFirst program rest
      ((i, slots) :: kept, found)

/-- Where threads start: those that go on, then a fresh one as long as nothing
has matched. -/
def enter (c : Compiled) (before after : Option Char) (position : Nat)
    (todo : List (Nat × Slots)) (best : Option Slots) : RunState :=
  let fresh := if best.isNone then [(c.start, Array.replicate c.slots none)] else []
  let fuel := 2 * c.program.size + todo.length + 4
  let ts := follow c.program before after position fuel (todo ++ fresh)
    ⟨[], Array.replicate c.program.size false⟩
  let (threads, found) := acceptFirst c.program ts.list.reverse
  ⟨threads, found.or best⟩

/-- Runs over the text; `before` is the character just read. -/
def run (c : Compiled) (before : Option Char) (position : Nat) (todo : List (Nat × Slots))
    (best : Option Slots) : List Char → Option Slots
  | [] => (enter c before none position todo best).best
  | ch :: rest =>
    let st := enter c before (some ch) position todo best
    if st.threads.isEmpty && st.best.isSome then st.best
    else
      let todo := st.threads.filterMap fun (i, slots) =>
        match c.program[i]? with
        | some (.chars s next) => if s.has ch then some (next, slots) else none
        | _ => none
      run c (some ch) (position + 1) todo st.best rest

/-- The texts of all groups of the first match; group 0 is the match itself. -/
def captures? (c : Compiled) (text : String) : Option (List (Option String)) :=
  let cs := text.toList
  (run c none 0 [] none cs).map fun slots =>
    (List.range (c.slots / 2)).map fun i =>
      match slots.getD (2 * i) none, slots.getD (2 * i + 1) none with
      | some a, some b => some (String.ofList ((cs.take b).drop a))
      | _, _ => none

/-- Whether the pattern occurs in the text. -/
def isMatch (c : Compiled) (text : String) : Bool :=
  (run c none 0 [] none text.toList).isSome

end SiteScrape.Pattern
