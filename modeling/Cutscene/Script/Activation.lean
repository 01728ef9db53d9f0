import Cutscene.Script.State

/-!
# Running scripts

A script runs as a stack of activations. An activation is a call of a function or a protected block;
it has a list of tasks and the operands that they leave for each other. `step` carries out the first
task of the activation on top. A `return` removes activations down to the one that it leaves; an
error removes them down to the innermost protected block.

A thread is watched: before each statement, before each test of a loop, and at the end of each
activation its deadline is looked at, and when that has come there is an error at this place. What
is run when a script is loaded is not watched and cannot give way. Neither can a protected block.

A run takes so many steps at most. One that would take more is given up where it is: what was done
stays done, and it ends as a run does whose deadline has come (`giveUp`).
-/

namespace Cutscene.Script

/-- One task of an activation. What it takes from the operands was put there by tasks before it. -/
inductive Task where
  /-- Runs statements. -/
  | run (body : List Statement)
  /-- Leaves the value of an expression. -/
  | evaluate (e : Expression)
  /-- Looks a key up. -/
  | member
  /-- Makes a table of the last values. -/
  | list (count : Nat)
  | record (names : List String)
  | operate (op : BinaryOperator)
  | not
  | describe
  | assign (name : String)
  | discard
  /-- Calls a function with the last values. -/
  | call (count : Nat)
  /-- Gives way. -/
  | pause (count : Nat)
  /-- Leaves the activation with the last values. -/
  | leave (count : Nat)
  | raise
  | branch (yes no : List Statement)
  /-- Tests the condition of a loop. -/
  | loop (condition : Expression) (body : List Statement)
  /-- Goes through a loop again if its condition held. -/
  | again (condition : Expression) (body : List Statement)

/-- A call of a function or a protected block. -/
structure Activation where
  /-- Whether errors end here. -/
  isProtected : Bool
  /-- The parameter of the innermost function; none outside functions. -/
  parameter : Option Value
  tasks : List Task
  /-- The values left for later tasks, the latest first. -/
  operands : List Value
  /-- How many calls deep this is. -/
  depth : Nat
  /-- How many protected blocks this is in. -/
  blocks : Nat

/-- The most calls that can be nested; a protected block counts as two. -/
def maxDepth : Nat := 16383

/-- The most protected blocks that can be nested. -/
def maxBlocks : Nat := 198

/-- Who is watched, and until when. -/
structure Watch where
  label : String
  deadline : Deadline

/-- How a run ends. -/
inductive Ending where
  /-- By giving way, with the activations that go on at the next resume. -/
  | paused (stack : List Activation)
  | finished (results : List Value)
  /-- With an error. -/
  | failed

/-- What one step leads to. -/
inductive Outcome where
  | ended (e : Ending) (s : State)
  | more (stack : List Activation) (s : State)

namespace Activation

/-- The activation with more to do first. -/
def doing (a : Activation) (tasks : List Task) : Activation := { a with tasks := tasks ++ a.tasks }

/-- The activation with one more operand. -/
def push (a : Activation) (v : Value) : Activation := { a with operands := v :: a.operands }

/-- The last operand and the activation without it. -/
def pop (a : Activation) : Value × Activation :=
  (a.operands.headD .nil, { a with operands := a.operands.tail })

/-- The last operands in order and the activation without them. -/
def popMany (a : Activation) (count : Nat) : List Value × Activation :=
  ((a.operands.take count).reverse, { a with operands := a.operands.drop count })

/-- A call of a function whose body is given. -/
def function (body : List Statement) (parameter : Option Value) (depth blocks : Nat) :
    Activation :=
  ⟨false, parameter, [.run body], [], depth, blocks⟩

/-- A protected block inside an activation. -/
def protecting (a : Activation) (body : List Statement) : Activation :=
  ⟨true, a.parameter, [.run body], [], a.depth + 2, a.blocks + 1⟩

end Activation

/-- What is left of a stack after an error; none if nothing is. -/
def unwind : List Activation → Option (List Activation)
  | [] => none
  | a :: below => if a.isProtected then some below else unwind below

/-- An error. -/
def fail (stack : List Activation) (s : State) : Outcome :=
  match unwind stack with
  | some stack => .more stack s
  | none => .ended .failed s

/-- Hands the results of a call to the caller, who takes the first. -/
def deliver (results : List Value) (callers : List Activation) (s : State) : Outcome :=
  match callers with
  | [] => .ended (.finished results) s
  | a :: below => .more (a.push (results.headD .nil) :: below) s

/-- Whether what runs on a stack can give way. -/
def canPause (watch : Option Watch) (stack : List Activation) : Bool :=
  watch.isSome && stack.all (!·.isProtected)

/-- The state after a deadline was found to have come. -/
def State.timeOut (label : String) (s : State) : State :=
  { s.note ⟨.error, s!"script {label} exceeded its time budget at line"⟩ with
    memory := { s.memory with timedOut := true } }

/-- Goes on unless the deadline has come. -/
def unlessLate (watch : Option Watch) (stack : List Activation) (s : State) (go : Outcome) :
    Outcome :=
  match watch with
  | some w => if w.deadline.isExpired s.time then fail stack (s.timeOut w.label) else go
  | none => go

/-- Calls a value. -/
def enter (watch : Option Watch) (f : Value) (args : List Value) (callers : List Activation)
    (s : State) : Outcome :=
  let depth := (callers.head?.map (·.depth)).getD 0 + 1
  let blocks := (callers.head?.map (·.blocks)).getD 0
  if maxDepth < depth then fail callers s
  else match f with
  | .closure _ body => .more (.function body (some (args.headD .nil)) depth blocks :: callers) s
  | .builtin b =>
    match b.perform args s with
    | (.results vs, s) => deliver vs callers s
    | (.failure, s) => fail callers s
    | (.pause, s) =>
      if canPause watch callers then .ended (.paused callers) s else fail callers s
  | _ => fail callers s

/-- Leaves the activation on top. -/
def leave (results : List Value) (a : Activation) (below : List Activation) (s : State) : Outcome :=
  if a.isProtected then .more below s else deliver results below s

/-- The value that a look-up starts from. -/
def rootValue (a : Activation) (root : String) (s : State) : Value :=
  match a.parameter with
  | some v => if root = "args" then v else s.global root
  | none => s.global root

/-- Begins to evaluate an expression. -/
def evaluate (a : Activation) (e : Expression) (s : State) : Activation × State :=
  match e with
  | .null => (a.push .nil, s)
  | .boolean b => (a.push (.boolean b), s)
  | .number x => (a.push (.number x), s)
  | .text bytes => (a.push (.text bytes), s)
  | .list items => (a.doing (items.map .evaluate ++ [.list items.length]), s)
  | .record members =>
    (a.doing (members.map (fun m => .evaluate m.2) ++ [.record (members.map (·.1))]), s)
  | .look root path =>
    ((a.push (rootValue a root s)).doing (path.flatMap fun key => [.evaluate key, .member]), s)
  | .call function args =>
    ((a.push (s.global function)).doing (args.map .evaluate ++ [.call args.length]), s)
  | .yield values => (a.doing (values.map .evaluate ++ [.pause values.length]), s)
  | .function body =>
    let (id, s) := s.freshId
    (a.push (.closure id body), s)
  | .binary op left right => (a.doing [.evaluate left, .evaluate right, .operate op], s)
  | .not e => (a.doing [.evaluate e, .not], s)
  | .describe e => (a.doing [.evaluate e, .describe], s)

/-- Begins a statement; gives the activations on top of the callers. -/
def start (a : Activation) (st : Statement) : List Activation :=
  match st with
  | .set name value => [a.doing [.evaluate value, .assign name]]
  | .call function args => [a.doing [.evaluate (.call function args), .discard]]
  | .yield values => [a.doing [.evaluate (.yield values), .discard]]
  | .return values => [a.doing (values.map .evaluate ++ [.leave values.length])]
  | .raise value => [a.doing [.evaluate value, .raise]]
  | .while condition body => [a.doing [.loop condition body]]
  | .branch condition yes no => [a.doing [.evaluate condition, .branch yes no]]
  | .protect body =>
    if maxBlocks ≤ a.blocks || maxDepth < a.depth + 2 then [a] else [a.protecting body, a]

/-- A named value that is not nil. -/
def namedValue? (name : String) (v : Value) : Option (String × Value) :=
  if v.isNil then none else some (name, v)

/-- Carries out a task of the activation on top. -/
def perform (watch : Option Watch) (t : Task) (a : Activation) (below : List Activation)
    (s : State) : Outcome :=
  let stay (a : Activation) : Outcome := .more (a :: below) s
  let orFail (a : Activation) (v : Option Value) : Outcome :=
    match v with
    | some v => .more (a.push v :: below) s
    | none => fail (a :: below) s
  match t with
  | .run [] => stay a
  | .run (st :: rest) =>
    unlessLate watch (a :: below) s (.more (start (a.doing [.run rest]) st ++ below) s)
  | .evaluate e =>
    let (a, s) := evaluate a e s
    .more (a :: below) s
  | .member =>
    let (key, a) := a.pop
    let (v, a) := a.pop
    orFail a (v.member? key)
  | .list count =>
    let (items, a) := a.popMany count
    let (id, s) := s.freshId
    .more (a.push (.list id false items) :: below) s
  | .record names =>
    let (vs, a) := a.popMany names.length
    let (id, s) := s.freshId
    let members := (names.zip vs).filterMap fun (name, v) => namedValue? name v
    .more (a.push (.record id members) :: below) s
  | .operate op =>
    let (right, a) := a.pop
    let (left, a) := a.pop
    orFail a (Value.operate? op left right)
  | .not =>
    let (v, a) := a.pop
    stay (a.push (.boolean !v.truthy))
  | .describe =>
    let (v, a) := a.pop
    stay (a.push (.text v.describe))
  | .assign name =>
    let (v, a) := a.pop
    .more (a :: below) (s.assign name v)
  | .discard => stay a.pop.2
  | .call count =>
    let (args, a) := a.popMany count
    let (f, a) := a.pop
    enter watch f args (a :: below) s
  | .pause count =>
    let stack := (a.popMany count).2 :: below
    if canPause watch stack then .ended (.paused stack) s else fail stack s
  | .leave count => leave (a.popMany count).1 a below s
  | .raise => fail (a :: below) s
  | .branch yes no =>
    let (v, a) := a.pop
    stay (a.doing [.run (if v.truthy then yes else no)])
  | .loop condition body =>
    unlessLate watch (a :: below) s (stay (a.doing [.evaluate condition, .again condition body]))
  | .again condition body =>
    let (v, a) := a.pop
    stay (if v.truthy then a.doing [.run body, .loop condition body] else a)

/-- One step. -/
def step (watch : Option Watch) (stack : List Activation) (s : State) : Outcome :=
  match stack with
  | [] => .ended (.finished []) s
  | a :: below =>
    match a.tasks with
    | [] => unlessLate watch stack s (leave [] a below s)
    | t :: rest => perform watch t { a with tasks := rest } below s

/-- The end of a run that takes too many steps. -/
def giveUp (watch : Option Watch) (s : State) : Ending × State :=
  match watch with
  | some w => (.failed, s.timeOut w.label)
  | none => (.failed, s)

/-- Takes steps until the run ends, at most `fuel` of them. -/
def run (watch : Option Watch) : Nat → List Activation → State → Ending × State
  | 0, _, s => giveUp watch s
  | fuel + 1, stack, s =>
    match step watch stack s with
    | .ended e s => (e, s)
    | .more stack s => run watch fuel stack s.pass

/-- More steps than any run that ends takes in practice. -/
def runFuel : Nat := 1 <<< 62

/-- Goes on from what a step has led to. -/
def Outcome.settle (watch : Option Watch) (o : Outcome) : Ending × State :=
  match o with
  | .ended e s => (e, s)
  | .more stack s => run watch runFuel stack s

end Cutscene.Script
