import Penflow.Client.Handshake
import Penflow.Client.VideoDecoder

/-!
# The samples of the frames

Every VIDEO_FRAME leaves a `PendingSample` in a map under its time stamp before it is fed to the decoder, and
the decoder's output callback takes it out again: the frame goes into the codec with its time stamp in
microseconds, and what comes back is turned into nanoseconds for the lookup.

The network thread records, evicts and feeds; the codec thread queues, and calls back with any of the inputs
that are queued.  A step is one of these.
-/

namespace Penflow.Client

structure PendingSample where
  ptsNs : Int64
  captureUs : Option Int32
  encodeUs : Option Int32
  recvNs : Int64
  deriving DecidableEq, Repr

/-- Where `readLoop` is with a VIDEO_FRAME. -/
inductive FrameReader where
  | waiting
  /-- the sample is in the map -/
  | recorded (header : VideoFrameHeader)
  /-- old samples are out of the map -/
  | evicted (header : VideoFrameHeader)
  deriving DecidableEq

/-- The frame that is recorded and not fed yet. -/
def FrameReader.unfed : FrameReader → Option VideoFrameHeader
  | waiting => none
  | recorded header => some header
  | evicted header => some header

structure FramePath where
  input : DecoderInput
  reader : FrameReader
  pendingFrameSamples : Int64 → Option PendingSample
  /-- every sample that was recorded, frame by frame -/
  recorded : List PendingSample
  /-- the queued inputs whose output has come, by their place -/
  shown : List ℕ

inductive FrameLabel where
  /-- a VIDEO_FRAME is read -/
  | receive (header : VideoFrameHeader) (recvNs : Int64)
  /-- `readLoop` goes on with it -/
  | readerTurn
  /-- a grant, or `feedBuffer` goes on -/
  | decoder (l : DecoderLabel)
  /-- `onOutputBufferAvailable` for the input that was queued at place `k` -/
  | output (k : ℕ)
  deriving DecidableEq

/-- `pendingSampleMaxAgeNs` -/
def pendingSampleMaxAgeNs : Int64 := 1000000000

/-- The `framePtsNs` of an output whose input was queued so. -/
def QueuedInput.outputPtsNs (q : QueuedInput) : Int64 := q.presentationTimeUs * 1000

/-- `keys.removeAll { it < cutoff }` -/
def removeOlder (cutoff : Int64) (m : Int64 → Option PendingSample) : Int64 → Option PendingSample :=
  fun key => if key < cutoff then none else m key

namespace DecoderInput

variable {s : DecoderInput}

theorem feed_fed {f : FedFrame} (hnetwork : s.network = .outside) : (s.feed f).fed = s.fed ++ [f] := by
  simp only [feed, hnetwork]
  cases s.decoder.parkedIndices with
  | nil => rfl
  | cons index parkedIndices => rfl

/-- Only `feed` feeds, and takes the network thread into the decoder. -/
theorem step_of_not_feed {l : DecoderLabel} (hl : ∀ f, l ≠ .feed f) :
    (s.step l).fed = s.fed ∧ (s.network = .outside → (s.step l).network = .outside) := by
  cases l with
  | feed f => exact absurd rfl (hl f)
  | onInputBufferAvailable index =>
      simp only [step, onInputBufferAvailable]
      split
      · split
        · exact ⟨rfl, id⟩
        · exact ⟨rfl, id⟩
      · exact ⟨rfl, id⟩
  | networkTurn =>
      cases hnetwork : s.network with
      | outside => simp [step, networkTurn, hnetwork]
      | filled index framePtsNs data => simp [step, networkTurn, hnetwork]
      | flagged index framePtsNs data isKey => simp [step, networkTurn, hnetwork]
  | codecTurn =>
      simp only [step, codecTurn]
      split
      · exact ⟨rfl, id⟩
      · exact ⟨rfl, id⟩
      · exact ⟨rfl, id⟩

end DecoderInput

namespace FramePath

def start : FramePath where
  input := .start
  reader := .waiting
  pendingFrameSamples := fun _ => none
  recorded := []
  shown := []

/-- The sample of a VIDEO_FRAME. -/
def sampleOf (header : VideoFrameHeader) (recvNs : Int64) : PendingSample :=
  ⟨header.ptsNs, header.captureUs, header.encodeUs, recvNs⟩

def receive (s : FramePath) (header : VideoFrameHeader) (recvNs : Int64) : FramePath :=
  match s.reader with
  | .waiting =>
    { s with
      reader := .recorded header
      pendingFrameSamples :=
        Function.update s.pendingFrameSamples header.ptsNs (some (sampleOf header recvNs))
      recorded := s.recorded ++ [sampleOf header recvNs] }
  | _ => s

def readerTurn (s : FramePath) : FramePath :=
  match s.reader with
  | .waiting => s
  | .recorded header =>
    let cutoff := header.ptsNs - pendingSampleMaxAgeNs
    { s with
      reader := .evicted header
      pendingFrameSamples := removeOlder cutoff s.pendingFrameSamples }
  | .evicted header =>
    let isKeyframe := header.flags &&& ubyte frameFlagKeyframe != 0
    { s with
      reader := .waiting
      input := s.input.feed ⟨header.ptsNs, header.coded, isKeyframe⟩ }

/-- What the output of the input at place `k` finds. -/
def found (s : FramePath) (k : ℕ) : Option PendingSample :=
  s.input.queued[k]?.bind fun q => s.pendingFrameSamples q.outputPtsNs

/-- `onDecoderFrameDone` for it. -/
def output (s : FramePath) (k : ℕ) : FramePath :=
  match s.input.queued[k]? with
  | none => s
  | some q =>
    { s with
      pendingFrameSamples := Function.update s.pendingFrameSamples q.outputPtsNs none
      shown := s.shown ++ [k] }

def step (s : FramePath) : FrameLabel → FramePath
  | .receive header recvNs => s.receive header recvNs
  | .readerTurn => s.readerTurn
  | .decoder l => { s with input := s.input.step l }
  | .output k => s.output k

/-- What may happen: `readLoop` reads the next frame when it is done with the last one, the time stamps are
distinct and not negative, and the codec gives out each of its inputs at most once, within a second of the
newest frame. -/
def Legal (s : FramePath) : FrameLabel → Prop
  | .receive header _ => s.reader = .waiting ∧ s.input.network = .outside ∧ 0 ≤ header.ptsNs ∧
      ∀ x ∈ s.recorded, x.ptsNs ≠ header.ptsNs
  | .readerTurn => True
  | .decoder l => ∀ f, l ≠ .feed f
  | .output k => k < s.input.queued.length ∧ k ∉ s.shown ∧
      ∀ own ∈ s.recorded[k]?, ∀ x ∈ s.recorded, x.ptsNs - pendingSampleMaxAgeNs ≤ own.ptsNs

/-- An output finds the sample of its own frame, and takes it and no other out of the map. -/
def OwnSample (s : FramePath) : FrameLabel → Prop
  | .output k => ∃ own, s.recorded[k]? = some own ∧ s.found k = some own ∧
      (s.output k).pendingFrameSamples = Function.update s.pendingFrameSamples own.ptsNs none
  | _ => True

/-- The frame that is given out has whole microseconds. -/
def WholeMicros (s : FramePath) : FrameLabel → Prop
  | .output k => ∀ own ∈ s.recorded[k]?, own.ptsNs % 1000 = 0
  | _ => True

/-! ### What holds all along -/

/-- The frames fed are the ones recorded, but for the one in the reader's hands, who is then not in the
decoder; the map has its samples under their own time stamps, among them every one that is neither shown nor
too old. -/
structure Tracked (s : FramePath) : Prop where
  inOrder : s.input.InOrder
  fed : s.input.fed.map FedFrame.framePtsNs ++ s.reader.unfed.toList.map VideoFrameHeader.ptsNs =
    s.recorded.map PendingSample.ptsNs
  busy : s.reader = .waiting ∨ s.input.network = .outside
  distinct : (s.recorded.map PendingSample.ptsNs).Nodup
  keys : ∀ key x, s.pendingFrameSamples key = some x → x.ptsNs = key
  kept : ∀ k x, s.recorded[k]? = some x → k ∉ s.shown →
    (∃ y ∈ s.recorded, x.ptsNs < y.ptsNs - pendingSampleMaxAgeNs) ∨
      s.pendingFrameSamples x.ptsNs = some x

variable {s : FramePath}

/-- One key is written: the samples stay under their own time stamps if the new one is. -/
theorem keys_update {m : Int64 → Option PendingSample} {stamp : Int64} {new : Option PendingSample}
    (hkeys : ∀ key x, m key = some x → x.ptsNs = key) (hnew : ∀ x, new = some x → x.ptsNs = stamp) :
    ∀ key x, Function.update m stamp new key = some x → x.ptsNs = key := by
  intro key x hx
  by_cases hkey : key = stamp
  · rw [hkey, Function.update_self] at hx
    rw [hkey]
    exact hnew x hx
  · rw [Function.update_of_ne hkey] at hx
    exact hkeys key x hx

/-- A session may find samples in the map, if they are under their own time stamps. -/
theorem tracked_leftOver {left : Int64 → Option PendingSample} (hkeys : ∀ key x, left key = some x → x.ptsNs = key) :
    { start with pendingFrameSamples := left }.Tracked where
  inOrder := DecoderInput.inOrder_start
  fed := rfl
  busy := .inl rfl
  distinct := List.nodup_nil
  keys := hkeys
  kept := by
    intro k x h
    cases h

theorem tracked_start : start.Tracked := by
  refine tracked_leftOver ?_
  intro key x h
  cases h

theorem tracked_receive {header : VideoFrameHeader} {recvNs : Int64} (hs : s.Tracked)
    (hreader : s.reader = .waiting) (hnetwork : s.input.network = .outside)
    (hnew : ∀ x ∈ s.recorded, x.ptsNs ≠ header.ptsNs) :
    (s.receive header recvNs).Tracked := by
  have hstep : s.receive header recvNs =
      { s with
        reader := .recorded header
        pendingFrameSamples :=
          Function.update s.pendingFrameSamples header.ptsNs (some (sampleOf header recvNs))
        recorded := s.recorded ++ [sampleOf header recvNs] } := by
    simp only [receive, hreader]
  have hfed := hs.fed
  rw [hreader] at hfed
  rw [hstep]
  refine ⟨hs.inOrder, ?_, .inr hnetwork, ?_, ?_, ?_⟩
  · show _ ++ [header.ptsNs] = _
    rw [List.map_append, ← hfed, FrameReader.unfed, Option.toList_none, List.map_nil, List.append_nil]
    rfl
  · rw [List.map_append, List.nodup_append]
    refine ⟨hs.distinct, List.pairwise_singleton _ _, ?_⟩
    intro pts hpts pts' hpts'
    obtain ⟨x, hx, rfl⟩ := List.mem_map.1 hpts
    rw [List.mem_singleton.1 hpts']
    exact hnew x hx
  · apply keys_update hs.keys
    intro x hx
    cases hx
    rfl
  · intro k x hx hk
    have hx : (s.recorded ++ [sampleOf header recvNs])[k]? = some x := hx
    rcases Nat.lt_or_ge k s.recorded.length with hlt | hge
    · rw [List.getElem?_append_left hlt] at hx
      have hne := hnew x (List.mem_of_getElem? hx)
      rcases hs.kept k x hx hk with ⟨y, hy, hold⟩ | hmap
      · exact .inl ⟨y, List.mem_append_left _ hy, hold⟩
      · right
        show Function.update s.pendingFrameSamples header.ptsNs _ x.ptsNs = some x
        rw [Function.update_of_ne hne, hmap]
    · rw [List.getElem?_append_right hge] at hx
      right
      have hzero : k - s.recorded.length = 0 := by
        have hlt := (List.getElem?_eq_some_iff.1 hx).1
        rw [List.length_singleton] at hlt
        omega
      rw [hzero] at hx
      cases hx
      exact Function.update_self ..

theorem tracked_readerTurn (hs : s.Tracked) : s.readerTurn.Tracked := by
  have hfed := hs.fed
  cases hreader : s.reader with
  | waiting =>
      simp only [readerTurn, hreader]
      exact hs
  | recorded header =>
      rw [hreader] at hfed
      have hmem : header.ptsNs ∈ s.recorded.map PendingSample.ptsNs := by
        rw [← hfed]
        exact List.mem_append_right _ List.mem_cons_self
      obtain ⟨y, hy, hpts⟩ := List.mem_map.1 hmem
      simp only [readerTurn, hreader]
      refine ⟨hs.inOrder, hfed, .inr (hs.busy.resolve_left (by rw [hreader]; simp)), hs.distinct, ?_, ?_⟩
      · intro key x hx
        have hx : (if key < header.ptsNs - pendingSampleMaxAgeNs then none
          else s.pendingFrameSamples key) = some x := hx
        split at hx
        · cases hx
        · exact hs.keys key x hx
      · intro k x hx hk
        rcases hs.kept k x hx hk with hold | hmap
        · exact .inl hold
        · by_cases hcut : x.ptsNs < header.ptsNs - pendingSampleMaxAgeNs
          · exact .inl ⟨y, hy, by rw [hpts]; exact hcut⟩
          · right
            show (if x.ptsNs < header.ptsNs - pendingSampleMaxAgeNs then none
              else s.pendingFrameSamples x.ptsNs) = some x
            rw [if_neg hcut, hmap]
  | evicted header =>
      rw [hreader] at hfed
      have hfed : s.input.fed.map FedFrame.framePtsNs ++ [header.ptsNs] =
        s.recorded.map PendingSample.ptsNs := hfed
      have hnetwork : s.input.network = .outside := hs.busy.resolve_left (by rw [hreader]; simp)
      have hnew : ∀ g ∈ s.input.fed, g.framePtsNs ≠ header.ptsNs := by
        have hdistinct := hs.distinct
        rw [← hfed, List.nodup_append] at hdistinct
        intro g hg
        exact hdistinct.2.2 _ (List.mem_map_of_mem hg) _ List.mem_cons_self
      simp only [readerTurn, hreader]
      refine ⟨DecoderInput.inOrder_feed hs.inOrder hnew, ?_, .inl rfl, hs.distinct, hs.keys, hs.kept⟩
      rw [DecoderInput.feed_fed hnetwork, List.map_append, FrameReader.unfed, Option.toList_none,
        List.map_nil, List.append_nil]
      exact hfed

theorem tracked_decoder {l : DecoderLabel} (hs : s.Tracked) (hl : ∀ f, l ≠ .feed f) :
    (s.step (.decoder l)).Tracked := by
  obtain ⟨hfed, hnetwork⟩ := DecoderInput.step_of_not_feed (s := s.input) hl
  refine ⟨DecoderInput.inOrder_step l hs.inOrder ?_, ?_, hs.busy.imp_right hnetwork, hs.distinct, hs.keys,
    hs.kept⟩
  · cases l with
    | feed f => exact absurd rfl (hl f)
    | onInputBufferAvailable index => trivial
    | networkTurn => trivial
    | codecTurn => trivial
  · show (s.input.step l).fed.map _ ++ _ = _
    rw [hfed]
    exact hs.fed

/-- Frames of one time stamp are one frame. -/
theorem Tracked.place_eq (hs : s.Tracked) {j k : ℕ} {x y : PendingSample} (hx : s.recorded[j]? = some x)
    (hy : s.recorded[k]? = some y) (hsame : x.ptsNs = y.ptsNs) : j = k := by
  have hj : (s.recorded.map PendingSample.ptsNs)[j]? = some x.ptsNs := by
    rw [List.getElem?_map, hx]
    rfl
  have hk : (s.recorded.map PendingSample.ptsNs)[k]? = some y.ptsNs := by
    rw [List.getElem?_map, hy]
    rfl
  have hbound := (List.getElem?_eq_some_iff.1 hj).1
  apply (List.getElem?_inj hbound hs.distinct).1
  rw [hj, hk, hsame]

/-! ### The output of a frame -/

/-- Whole microseconds, and only they, come back from the codec unchanged. -/
theorem micros_eq_iff (x : Int64) : x / 1000 * 1000 = x ↔ x % 1000 = 0 := by
  have hlo := x.le_toInt
  have hhi := x.toInt_lt
  have hthousand : (1000 : Int64).toInt = 1000 := rfl
  have hsum : x.toInt.tmod 1000 + 1000 * x.toInt.tdiv 1000 = x.toInt := Int.tmod_add_mul_tdiv ..
  have hrest : (0 ≤ x.toInt → 0 ≤ x.toInt.tmod 1000) ∧ (x.toInt ≤ 0 → x.toInt.tmod 1000 ≤ 0) :=
    ⟨fun h => Int.tmod_nonneg 1000 h, fun h => by
      have hneg := Int.tmod_nonneg 1000 (a := -x.toInt) (by omega)
      rw [Int.neg_tmod] at hneg
      omega⟩
  have hsmall : x.toInt.tmod 1000 < 1000 := Int.tmod_lt_of_pos _ (by decide)
  have hlarge : -1000 < x.toInt.tmod 1000 := Int.lt_tmod_of_pos _ (by decide)
  have hdiv : (x / 1000).toInt = x.toInt.tdiv 1000 := by
    rw [Int64.toInt_div_of_ne_right _ _ (by decide), hthousand]
  have hmul : (x / 1000 * 1000).toInt = x.toInt.tdiv 1000 * 1000 := by
    rw [Int64.toInt_mul, hdiv, hthousand]
    apply Int.bmod_eq_of_le
    · omega
    · omega
  have hmod : (x % 1000).toInt = x.toInt.tmod 1000 := by rw [Int64.toInt_mod, hthousand]
  rw [← Int64.toInt_inj, hmul, ← Int64.toInt_inj, hmod]
  show _ ↔ _ = (0 : ℤ)
  omega

/-- What was queued at place `k` is the `k`-th frame recorded. -/
theorem queued_pts (hs : s.Tracked) {k : ℕ} {q : QueuedInput} (hq : s.input.queued[k]? = some q) :
    ∃ own, s.recorded[k]? = some own ∧ q.presentationTimeUs = own.ptsNs / 1000 := by
  have hlt := (List.getElem?_eq_some_iff.1 hq).1
  have hmatched : s.input.matched[k]? = some q := by
    obtain ⟨t, ht⟩ := DecoderInput.queued_prefix_matched hs.inOrder
    rw [← ht, List.getElem?_append_left hlt, hq]
  obtain ⟨index, f, -, hf, rfl⟩ := List.getElem?_zipWith_eq_some.1 hmatched
  have hpts : (s.recorded.map PendingSample.ptsNs)[k]? = some f.framePtsNs := by
    have hlen := (List.getElem?_eq_some_iff.1 hf).1
    rw [← hs.fed, List.getElem?_append_left (by rwa [List.length_map]), List.getElem?_map, hf]
    rfl
  rw [List.getElem?_map, Option.map_eq_some_iff] at hpts
  obtain ⟨own, hown, hsame⟩ := hpts
  refine ⟨own, hown, ?_⟩
  rw [hsame]
  rfl

/-- **One output.**  While the map is in order, an output finds its own sample exactly when the time stamp of
its frame has whole microseconds. -/
theorem ownSample_iff (hs : s.Tracked) {k : ℕ} (hlegal : s.Legal (.output k)) :
    s.OwnSample (.output k) ↔ s.WholeMicros (.output k) := by
  obtain ⟨hlt, hshown, hyoung⟩ := hlegal
  have hq : s.input.queued[k]? = some s.input.queued[k] := List.getElem?_eq_getElem hlt
  obtain ⟨own, hown, hpts⟩ := queued_pts hs hq
  have hkey : s.input.queued[k].outputPtsNs = own.ptsNs / 1000 * 1000 := by
    rw [QueuedInput.outputPtsNs, hpts]
  have hfound : s.found k = s.pendingFrameSamples (own.ptsNs / 1000 * 1000) := by
    rw [found, hq, Option.bind_some, hkey]
  have houtput : (s.output k).pendingFrameSamples =
      Function.update s.pendingFrameSamples (own.ptsNs / 1000 * 1000) none := by
    simp only [output, hq, hkey]
  have hwhole : s.WholeMicros (.output k) ↔ own.ptsNs % 1000 = 0 := by
    simp only [WholeMicros, hown, Option.mem_def, Option.some.injEq, forall_eq']
  rw [hwhole, ← micros_eq_iff]
  constructor
  · rintro ⟨own', hown', hfind, -⟩
    rw [hown] at hown'
    cases hown'
    rw [hfound] at hfind
    exact (hs.keys _ _ hfind).symm
  · intro hmicros
    refine ⟨own, hown, ?_, by rw [houtput, hmicros]⟩
    rw [hfound, hmicros]
    refine (hs.kept k own hown hshown).resolve_left ?_
    rintro ⟨y, hy, hold⟩
    exact Int64.not_lt.2 (hyoung own hown y hy) hold

theorem tracked_output (hs : s.Tracked) {k : ℕ} (hown : s.OwnSample (.output k)) :
    (s.output k).Tracked := by
  obtain ⟨own, hrec, hfind, hmap⟩ := hown
  cases hq : s.input.queued[k]? with
  | none =>
      simp only [output, hq]
      exact hs
  | some q =>
      have hstep : s.output k =
          { s with
            pendingFrameSamples := Function.update s.pendingFrameSamples own.ptsNs none
            shown := s.shown ++ [k] } := by
        have hshown : (s.output k).shown = s.shown ++ [k] := by simp only [output, hq]
        rw [← hmap, ← hshown]
        simp only [output, hq]
      rw [hstep]
      refine ⟨hs.inOrder, hs.fed, hs.busy, hs.distinct, ?_, ?_⟩
      · apply keys_update hs.keys
        intro x hx
        cases hx
      · intro j x hx hj
        have hj : j ∉ s.shown ++ [k] := hj
        rw [List.mem_append, not_or, List.mem_singleton] at hj
        rcases hs.kept j x hx hj.1 with hold | hkept
        · exact .inl hold
        · right
          have hne : x.ptsNs ≠ own.ptsNs := fun hsame => hj.2 (hs.place_eq hx hrec hsame)
          show Function.update s.pendingFrameSamples own.ptsNs none x.ptsNs = some x
          rw [Function.update_of_ne hne, hkept]

theorem tracked_step {l : FrameLabel} (hs : s.Tracked) (hlegal : s.Legal l) (hown : s.OwnSample l) :
    (s.step l).Tracked := by
  cases l with
  | receive header recvNs => exact tracked_receive hs hlegal.1 hlegal.2.1 hlegal.2.2.2
  | readerTurn => exact tracked_readerTurn hs
  | decoder l => exact tracked_decoder hs hlegal
  | output k => exact tracked_output hs hown

/-- **Samples are matched by time stamp.**  In every run of frames with distinct time stamps, whatever inputs
the codec gives out and in whatever order, every output finds and removes the sample of its own frame exactly
when the time stamp of every frame given out has whole microseconds. -/
theorem ownSample_steps_iff {is : List FrameLabel} (hlegal : Run.Steps step Legal start is) :
    Run.Steps step OwnSample start is ↔ Run.Steps step WholeMicros start is := by
  refine Run.Steps.congr_of_invariant hlegal tracked_start ?_ fun s l hs hl ho => tracked_step hs hl ho
  intro s l hs hl
  cases l with
  | receive header recvNs => exact Iff.rfl
  | readerTurn => exact Iff.rfl
  | decoder l => exact Iff.rfl
  | output k => exact ownSample_iff hs hl

/-- The second frame at 60 frames per second: recorded, fed, queued, and given out by the codec. -/
def secondFrame : List FrameLabel :=
  [.receive ⟨16666667, 0, none, none, [0x41]⟩ 5, .readerTurn, .readerTurn,
    .decoder (.onInputBufferAvailable 7), .decoder .codecTurn, .decoder .codecTurn, .output 0]

theorem secondFrame_legal : Run.Steps step Legal start secondFrame := by
  refine ⟨⟨rfl, rfl, by decide, ?_⟩, trivial, trivial, ?_, ?_, ?_, ⟨by decide +kernel, by decide +kernel,
    by decide +kernel⟩, trivial⟩
  · intro x hx
    cases hx
  · intro f hf
    cases hf
  · intro f hf
    cases hf
  · intro f hf
    cases hf

/-- Its output asks for 16 666 000 ns and finds nothing. -/
theorem secondFrame_lost : ¬ ∀ is : List FrameLabel, Run.Steps step Legal start is →
    Run.Steps step OwnSample start is := by
  intro h
  obtain ⟨-, -, -, -, -, -, ⟨own, -, hfound, -⟩, -⟩ := h secondFrame secondFrame_legal
  have hnone : ((secondFrame.take 6).foldl step start).found 0 = none := by decide +kernel
  have hfound : ((secondFrame.take 6).foldl step start).found 0 = some own := hfound
  rw [hnone] at hfound
  cases hfound

/-- At 50 frames per second the second frame's output finds its sample. -/
theorem ownSample_steps_iff_secondFrame :
    Run.Steps step OwnSample start (.receive ⟨20000000, 0, none, none, [0x41]⟩ 5 :: secondFrame.tail) := by
  have hlegal : Run.Steps step Legal start
      (.receive ⟨20000000, 0, none, none, [0x41]⟩ 5 :: secondFrame.tail) := by
    refine ⟨⟨rfl, rfl, by decide, ?_⟩, trivial, trivial, ?_, ?_, ?_, ⟨by decide +kernel, by decide +kernel,
      by decide +kernel⟩, trivial⟩
    · intro x hx
      cases hx
    · intro f hf
      cases hf
    · intro f hf
      cases hf
    · intro f hf
      cases hf
  refine (ownSample_steps_iff hlegal).2 ⟨trivial, trivial, trivial, trivial, trivial, trivial, ?_, trivial⟩
  intro own hown
  cases hown
  decide

end FramePath

end Penflow.Client
