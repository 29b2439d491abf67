import Penflow.Client.Hud
import Penflow.Client.TimeSync

/-!
# What the latency panel is fed

`onDecoderFrameDone` takes the sample of a frame out of the map and hands it to the HUD.  The codec thread is in
that callback while the network thread goes on: it reads the clock offset first, and later whether there is one;
`observe` writes the offset first, and the window's count later.

The map and the figures of the HUD outlive a session.  A frame of this one may find a sample that an earlier session
has left under its time stamp.
-/

namespace Penflow.Client

namespace TimeSync

/-- `isReady` -/
def isReady (s : TimeSync) : Bool := 0 < s.windowSampleCount

/-- `DEFAULT_WINDOW_MS` -/
def defaultWindowMs : ℤ := 60000

end TimeSync

/-- What earlier sessions have left in the map: samples under their own time stamps. -/
structure LeftOver where
  samples : Int64 → Option PendingSample
  keys : ∀ key x, samples key = some x → x.ptsNs = key

/-- Nothing has been left. -/
def LeftOver.none : LeftOver where
  samples := fun _ => Option.none
  keys := by
    intro key x h
    cases h

/-- What the HUD is fed by: the frames' way, the clock offset, and the codec thread in its callback. -/
structure LatencyPanel where
  path : FramePath
  timeSync : TimeSync
  /-- `observe` has written the offset and not yet the window's count -/
  publishing : Option TimeSync
  /-- the responses that were observed -/
  observed : List SyncStamps
  hud : HudView
  /-- a sample is out of the map and the offset is read: the sample, `decodedNs`, the offset -/
  inCallback : Option (PendingSample × Int64 × Int64)
  /-- the calls of `recordFrameSample` in this session -/
  frames : List FrameDone

inductive PanelLabel where
  /-- a step of the frames but an output -/
  | path (l : FrameLabel)
  /-- a response is observed, up to the offset -/
  | observe (e : SyncStamps)
  /-- `observe` writes the rest -/
  | published
  /-- `onDecoderFrameDone` takes the sample and reads the offset -/
  | frameDone (k : ℕ) (decodedNs : Int64)
  /-- it asks `isReady` and records -/
  | record

namespace LatencyPanel

/-- A session begins, with no callback of an earlier one running; the panel has its figures from the earlier ones,
and the map what they left. -/
def start (earlier : List FrameDone) (left : LeftOver) : LatencyPanel where
  path := { FramePath.start with pendingFrameSamples := left.samples }
  timeSync := .fresh TimeSync.defaultWindowMs
  publishing := none
  observed := []
  hud := .after earlier
  inCallback := none
  frames := []

/-- The offset is written before the window's count. -/
def observe (s : LatencyPanel) (e : SyncStamps) : LatencyPanel :=
  let next := s.timeSync.observe e
  { s with
    timeSync := { s.timeSync with pcMinusAndroidNs := next.pcMinusAndroidNs }
    publishing := some next
    observed := s.observed ++ [e] }

def published (s : LatencyPanel) : LatencyPanel :=
  match s.publishing with
  | none => s
  | some next => { s with timeSync := next, publishing := none }

/-- `remove(framePtsNs) ?: return`, and the first of the arguments -/
def frameDone (s : LatencyPanel) (k : ℕ) (decodedNs : Int64) : LatencyPanel :=
  match s.path.found k with
  | none => { s with path := s.path.output k }
  | some sample =>
    { s with
      path := s.path.output k
      inCallback := some (sample, decodedNs, Int64.ofInt s.timeSync.pcMinusAndroidNs) }

def record (s : LatencyPanel) : LatencyPanel :=
  match s.inCallback with
  | none => s
  | some (sample, decodedNs, pcMinusAndroidNs) =>
    let f : FrameDone := ⟨sample, decodedNs, pcMinusAndroidNs, s.timeSync.isReady⟩
    { s with
      hud := s.hud.recordFrameSample f
      inCallback := none
      frames := s.frames ++ [f] }

def step (s : LatencyPanel) : PanelLabel → LatencyPanel
  | .path l => { s with path := s.path.step l }
  | .observe e => s.observe e
  | .published => s.published
  | .frameDone k decodedNs => s.frameDone k decodedNs
  | .record => s.record

/-- What may happen: the codec thread runs one callback after the other, the network thread is done with one
response before it observes the next. -/
def Legal (s : LatencyPanel) : PanelLabel → Prop
  | .path l => s.path.Legal l ∧ ∀ k, l ≠ .output k
  | .observe _ => s.publishing = none
  | .published => True
  | .frameDone k _ => s.inCallback = none ∧ s.path.Legal (.output k)
  | .record => True

/-- The first response is not observed while a callback has read the offset. -/
def Whole (s : LatencyPanel) : PanelLabel → Prop
  | .observe _ => s.inCallback = none ∨ ∃ e ∈ s.observed, ¬ e.rtt < 0
  | _ => True

/-- The frame that is given out has whole microseconds. -/
def WholeMicros (s : LatencyPanel) : PanelLabel → Prop
  | .frameDone k _ => s.path.WholeMicros (.output k)
  | _ => True

variable {s : LatencyPanel}

/-- The samples that are out of the map for good. -/
def taken (s : LatencyPanel) : List PendingSample :=
  s.frames.map FrameDone.sample ++ s.inCallback.toList.map Prod.fst

variable {earlier : List FrameDone} {left : LeftOver} {own old : List PendingSample}

/-- A response that `observe` takes. -/
def Accepted (observed : List SyncStamps) (e : SyncStamps) : Prop := e ∈ observed ∧ ¬ e.rtt < 0

theorem Accepted.concat {observed : List SyncStamps} {e : SyncStamps} (h : Accepted observed e) (e' : SyncStamps) :
    Accepted (observed ++ [e']) e := ⟨List.mem_append_left _ h.1, h.2⟩

/-- A frame is read, fed and given out, and the first response comes before the callback. -/
def firstFrame (ptsNs : Int64) : List PanelLabel :=
  [.path (.receive ⟨ptsNs, 0, none, none, [0x41]⟩ 5), .path .readerTurn, .path .readerTurn,
    .path (.decoder (.onInputBufferAvailable 7)), .path (.decoder .codecTurn), .path (.decoder .codecTurn),
    .observe ⟨0, 100, 110, 30⟩, .published, .frameDone 0 20, .record]

/-- A sample of an earlier session. -/
def leftBehind : LeftOver where
  samples := fun key => if key = 5000000000 then some ⟨5000000000, none, none, 3⟩ else none
  keys := by
    intro key x h
    split at h
    · next hkey =>
        cases h
        exact hkey.symm
    · cases h

/-- A frame of this session takes it: 5 000 000 500 ns come back from the codec as 5 000 000 000. -/
example : (((firstFrame 5000000500).foldl step (start [] leftBehind)).frames.map FrameDone.sample) =
    [⟨5000000000, none, none, 3⟩] := by
  decide +kernel

/-- The first response comes between the two reads. -/
def tornCallback : List PanelLabel :=
  (firstFrame 16666000).take 6 ++ [.frameDone 0 20, .observe ⟨0, 100, 110, 30⟩, .published, .record]

/-- The callback has no offset, and records it as one. -/
example :
    ((tornCallback.foldl step (start [] .none)).frames.map fun f => (f.pcMinusAndroidNs, f.syncReady)) =
      [(0, true)] := by
  decide +kernel

end LatencyPanel

end Penflow.Client
