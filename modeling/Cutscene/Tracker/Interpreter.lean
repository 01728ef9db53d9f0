import Cutscene.Numeric.Decimal
import Cutscene.Text.Blank
import Cutscene.Stage
import Cutscene.Tracker.Frame

/-!
# Executing operations

`execute` runs one operation once. It may change the stage and the interpreter's own memory (who is
speaking, which track is playing), and it answers with a `Flow`: go on, wait for a later tick, call
an event, or end the event. An operation that spans several ticks is executed once in each of them;
`entering` tells the first time, and later times get the progress that the time before left.

Texts are revealed in chunks: one character, or a blank with the character after it. A chunk is due
when the interval has passed since the last one.
-/

namespace Cutscene

open Numeric

/-- What an operation asks for. -/
inductive Flow where
  /-- The operation is done. -/
  | next
  /-- The operation goes on in a later tick. -/
  | suspend (p : Progress)
  /-- The operation calls an event and is done when that ends. -/
  | call (e : Event)
  /-- The event ends here. -/
  | cancel

/-- What the interpreter remembers between operations. -/
structure Voices where
  /-- The entity that cues and texts go to. -/
  speaker : Option String
  /-- The track that was asked for last. -/
  music : Option String
deriving DecidableEq, Repr, Inhabited

/-- Nobody speaks and nothing plays. -/
def Voices.silent : Voices := ⟨none, none⟩

/-- What one execution leaves. -/
structure Effect (σ : Type) where
  flow : Flow
  voices : Voices
  /-- An event to run after all that is running. -/
  queued : Option Event
  state : σ

namespace Effect

variable {σ : Type}

/-- What is left by an execution that neither touches the memory nor queues an event. -/
def plain (voices : Voices) (r : Flow × σ) : Effect σ := ⟨r.1, voices, none, r.2⟩

@[simp] theorem flow_plain (voices : Voices) (r : Flow × σ) : (plain voices r).flow = r.1 := rfl

@[simp] theorem voices_plain (voices : Voices) (r : Flow × σ) :
    (plain voices r).voices = voices := rfl

@[simp] theorem queued_plain (voices : Voices) (r : Flow × σ) :
    (plain voices r).queued = none := rfl

@[simp] theorem state_plain (voices : Voices) (r : Flow × σ) : (plain voices r).state = r.2 := rfl

end Effect

/-- Nanoseconds in a millisecond. -/
def nanosPerMilli : Nat := 1000000

/-- A duration in nanoseconds. -/
def millis (ms : UInt64) : Nat := ms.toNat * nanosPerMilli

/-! ## Texts -/

/-- What follows the first bytes of a text; none if they end inside a character or beyond the
text. -/
def dropBytes? : Nat → List Char → Option (List Char)
  | 0, cs => some cs
  | _ + 1, [] => none
  | n + 1, c :: rest => if c.utf8Size ≤ n + 1 then dropBytes? (n + 1 - c.utf8Size) rest else none

/-- The next characters to reveal: one, or a blank with the one after it. -/
def chunk : List Char → List Char
  | [] => []
  | [c] => [c]
  | c :: d :: _ => if Text.isBlank c then [c, d] else [c]

/-- The bytes of a list of characters. -/
def byteSize (cs : List Char) : Nat := cs.foldr (fun c n => c.utf8Size + n) 0

section

variable {σ : Type} (stage : Stage σ)

/-- Sends a cue to the speaker if there is one. -/
def cueSpeaker (voices : Voices) (cue : Cue) (s : σ) : σ :=
  match voices.speaker with
  | some speaker => stage.entityCue speaker cue s
  | none => s

/-- The end of a text: the speaker's mouth closes. -/
def endSpeech (voices : Voices) (s : σ) : σ := cueSpeaker stage voices (.speech false) s

/-- The beginning of a text: the speaker's face and mouth, the dialog box, an empty page. -/
def beginSay (say : Say) (voices : Voices) (s : σ) : σ :=
  let s := match voices.speaker with
    | some speaker =>
      let s := if say.expression.isSome then stage.showExpression say.expression s else s
      stage.entityCue speaker (.speech true) s
    | none => s
  let s := if stage.isBoxOpen s then s else stage.openBox s
  if say.append then s else stage.setText "" s

/-- All of a text at once. -/
def sayAtOnce (say : Say) (voices : Voices) (s : σ) : σ :=
  let s := stage.dialogClick s
  let s := if say.append then stage.appendText say.text s else stage.setText say.text s
  endSpeech stage voices s

/-- Whether a chunk is due. -/
def isDue (interval now : Nat) : Option Nat → Bool
  | none => true
  | some last => interval ≤ now - last

/-- One tick of a text that is typed out. -/
def typeOut (say : Say) (voices : Voices) (now offset revealed : Nat) (last : Option Nat) (s : σ) :
    Flow × σ :=
  let total := say.text.utf8ByteSize
  let interval := say.intervalMs.toInt.toNat * nanosPerMilli
  let (offset, revealed, last, s) :=
    if isDue interval now last && offset < total then
      let s := if revealed % dialogClickInterval = 0 then stage.dialogClick s else s
      let shown := chunk ((dropBytes? offset say.text.toList).getD [])
      let s := stage.appendText (String.ofList shown) s
      (offset + byteSize shown, revealed + shown.length, some now, s)
    else (offset, revealed, last, s)
  if total ≤ offset then (.next, endSpeech stage voices s)
  else (.suspend (.say offset revealed last), s)

/-- One tick of a text. -/
def sayStep (say : Say) (voices : Voices) (now : Nat) (entering : Bool) (progress : Progress)
    (s : σ) : Flow × σ :=
  let s := if entering then beginSay stage say voices s else s
  if say.intervalMs < 0 then (.next, sayAtOnce stage say voices s)
  else match entering, progress with
  | false, .say offset revealed last => typeOut stage say voices now offset revealed last s
  | _, _ => typeOut stage say voices now 0 0 none s

/-! ## Waiting -/

/-- One tick of a wait. -/
def waitStep (duration now : Nat) (entering : Bool) (progress : Progress) : Flow :=
  let started := match entering, progress with
    | false, .wait started => started
    | _, _ => now
  if duration ≤ now - started then .next else .suspend (.wait started)

/-- One tick of waiting for the key. -/
def keyStep (entering : Bool) (s : σ) : Flow × σ :=
  let s := if entering then stage.showCursor true s else s
  let (pressed, s) := stage.consume .activate s
  if pressed then (.next, stage.showCursor false s) else (.suspend .fresh, s)

/-! ## Calls -/

/-- Calls the event of a name, or goes on if there is none. -/
def callNamed (name : String) (s : σ) : Flow × σ :=
  match stage.findEvent name s with
  | some e => (.call e, s)
  | none => (.next, stage.say .error s!"event '{name}' not found" s)

/-- Moves the highlight of a selection if a control is pressed, and shows the options anew. -/
def navigate (first second : Choice) (c : Control) (choice : Bool) (r : Bool × σ) : Bool × σ :=
  let (pressed, s) := stage.consume c r.2
  if pressed then (choice, stage.showOptions first.label second.label choice s) else (r.1, s)

/-- One tick of a selection. Of two moves in one tick the one to the second option comes last. -/
def selectionStep (first second : Choice) (entering : Bool) (progress : Progress) (s : σ) :
    Flow × σ :=
  let highlighted := match entering, progress with
    | false, .selection highlighted => highlighted
    | _, _ => false
  let s := if entering then stage.showOptions first.label second.label highlighted s else s
  let r := navigate stage first second .selectPrevious false (highlighted, s)
  let r := navigate stage first second .selectNext true r
  let (chosen, s) := stage.consume .activate r.2
  if chosen then
    callNamed stage (if r.1 then second.event else first.event) (stage.hideOptions s)
  else (.suspend (.selection r.1), s)

/-- A call that depends on a flag. The frame's event and position identify an inline event. -/
def flagIfStep (event : Event) (position : Nat) (flag : String) (target : Option String)
    (inlined : Option (List Operation)) (s : σ) : Flow × σ :=
  if stage.hasFlag flag s then
    match inlined, target with
    | some (op :: ops), _ => (.call (event.inlined position (op :: ops)), s)
    | _, some name => callNamed stage name s
    | _, none => (.next, stage.say .warn s!"flag_if '{flag}' has no event to call" s)
  else (.next, s)

/-! ## Entities and music -/

/-- A cue. -/
def entityStep (cue : Cue) (voices : Voices) (s : σ) : Voices × σ :=
  match cue, voices.speaker with
  | .speaker none, _ => ({ voices with speaker := none }, s)
  | .speaker (some name), current =>
    if name = "" then ({ voices with speaker := none }, s)
    else if stage.hasEntity name s then
      ({ voices with speaker := some name },
        if current.isSome then stage.showExpression none s else s)
    else (voices, stage.say .error s!"entity '{name}' does not exist" s)
  | _, none => (voices, stage.say .debug "entity cue without a speaker skipped" s)
  | .move x y true, some speaker =>
    (voices, stage.entityCue speaker (.move (x * tileSize) (y * tileSize) true) s)
  | cue, some speaker => (voices, stage.entityCue speaker cue s)

/-- A music command. A track that was asked for last is not asked for again. -/
def musicStep (action : MusicAction) (voices : Voices) (s : σ) : Voices × σ :=
  match action with
  | .set path looped =>
    if voices.music = some path then (voices, s)
    else ({ voices with music := some path }, stage.playMusic path looped s)
  | .stop => ({ voices with music := none }, stage.stopMusic s)
  | .pause => (voices, stage.pauseMusic s)
  | .play => (voices, stage.resumeMusic s)

/-! ## Scenes -/

/-- A change of scene. A speaker that the new scene lacks is forgotten. -/
def sceneLoadStep (path : String) (door : Option String) (voices : Voices) (s : σ) : Effect σ :=
  let s := stage.say .debug s!"scene load {path}" s
  let (start, s) := stage.loadScene path door s
  let s := match start with
    | some e => stage.say .debug s!"event {e.displayName} queued" s
    | none => s
  let voices := match voices.speaker with
    | some speaker => if stage.hasEntity speaker s then voices else { voices with speaker := none }
    | none => voices
  ⟨.next, voices, start, s⟩

/-- The integers from one bound up to but not including another. -/
def span (low high : Int) : List Int := (List.range (high - low).toNat).map fun i : Nat => low + i

/-- The places of a rectangle, column by column. -/
def TileFill.cells (t : TileFill) : List (Int × Int) :=
  (span t.start.1.toInt t.stop.1.toInt).flatMap fun x =>
    (span t.start.2.toInt t.stop.2.toInt).map fun y => (x, y)

/-- Fills a rectangle of tiles. -/
def tileStep (t : TileFill) (s : σ) : σ :=
  t.cells.foldl (fun s p => stage.setTile t.layer.toNat p t.atlas t.rotation.toInt s) s

/-! ## Fades -/

/-- A duration in seconds: the whole seconds plus the fraction, each rounded. -/
def seconds (nanos : Nat) : Single :=
  .ofNat (nanos / 1000000000) + .ofNat (nanos % 1000000000) / .ofNat 1000000000

/-- The opacity of a level between zero and one, rounded, a half upwards. -/
def alphaOf (level : Single) : UInt8 :=
  match ((.ofNat 255 : Single) * level).roundAway with
  | some n => UInt8.ofNat (min 255 n.toNat)
  | none => match level with
    | .infinite false => 255
    | _ => 0

/-- The opacity at which a fade ends: fading out covers the picture. -/
def fadeTarget (out : Bool) : UInt8 := if out then 255 else 0

/-- One tick of a fade, out to an opaque overlay or in to a transparent one. -/
def fadeStep (out : Bool) (duration now : Nat) (entering : Bool) (progress : Progress) (s : σ) :
    Flow × σ :=
  let (started, s) := match entering, progress with
    | false, .fade started => (started, s)
    | _, _ => (now, stage.lockMovement true s)
  let elapsed := now - started
  let colour := stage.overlay s
  if elapsed < duration ∧ colour.alpha ≠ fadeTarget out then
    let t := seconds elapsed / seconds duration
    let level := if out then t else .ofNat 1 - t
    (.suspend (.fade started), stage.setOverlay (colour.withAlpha (alphaOf level)) s)
  else
    (.next, stage.lockMovement false (stage.setOverlay (colour.withAlpha (fadeTarget out)) s))

/-! ## One execution -/

/-- Executes the operation at a position of an event. -/
def execute (event : Event) (position : Nat) (op : Operation) (now : Nat) (entering : Bool)
    (progress : Progress) (voices : Voices) (s : σ) : Effect σ :=
  match op with
  | .say say => .plain voices (sayStep stage say voices now entering progress s)
  | .wait d => .plain voices (waitStep (millis d) now entering progress, s)
  | .waitForKey => .plain voices (keyStep stage entering s)
  | .hideBox => .plain voices (.next, stage.closeBox s)
  | .selection first second => .plain voices (selectionStep stage first second entering progress s)
  | .entity cue =>
    let (voices, s) := entityStep stage cue voices s
    ⟨.next, voices, none, s⟩
  | .flagSet flag => .plain voices (.next, stage.setFlag flag s)
  | .flagUnset flag => .plain voices (.next, stage.unsetFlag flag s)
  | .flagIf flag target inlined =>
    .plain voices (flagIfStep stage event position flag target inlined s)
  | .flagExitIf flag => .plain voices (if stage.hasFlag flag s then .cancel else .next, s)
  | .flagOnce flag =>
    .plain voices (if stage.hasFlag flag s then (.cancel, s) else (.next, stage.setFlag flag s))
  | .music action =>
    let (voices, s) := musicStep stage action voices s
    ⟨.next, voices, none, s⟩
  | .sceneLoad path door => sceneLoadStep stage path door voices s
  | .tileReplace t => .plain voices (.next, tileStep stage t s)
  | .fadeIn d => .plain voices (fadeStep stage false (millis d) now entering progress s)
  | .fadeOut d => .plain voices (fadeStep stage true (millis d) now entering progress s)
  | .unsupported opcode =>
    .plain voices (.next, stage.say .error s!"unsupported opcode '{opcode}' skipped" s)

end

end Cutscene
