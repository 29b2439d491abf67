import Mathlib.Logic.Function.Basic
import Penflow.Lib.Rendezvous
import Penflow.Lib.Run

/-!
# The input side of the decoder

The network thread feeds frames, the codec thread grants input buffers.  A frame and an index are matched
in a `synchronized` block and queued outside of it, so between the two a thread holds a frame that the
codec does not have yet.  A step of the machine is a call on one of the threads, or what its running
`feedBuffer` does next; the block that clears the key-frame flag is a step of its own.
-/

namespace Penflow.Client

/-- A frame as `feed` is called with it. -/
structure FedFrame where
  framePtsNs : Int64
  coded : List UInt8
  isKeyframe : Bool
  deriving DecidableEq, Repr

/-- A `queueInputBuffer` call, with the bytes that were put in the buffer. -/
structure QueuedInput where
  index : Int32
  data : List UInt8
  presentationTimeUs : Int64
  flags : UInt32
  deriving DecidableEq, Repr

/-- `MediaCodec.BUFFER_FLAG_KEY_FRAME` -/
def bufferFlagKeyFrame : UInt32 := 1

/-- The call that `feedBuffer` ends with. -/
def queuedInput (index : Int32) (framePtsNs : Int64) (data : List UInt8) (isKey : Bool) : QueuedInput where
  index := index
  data := data
  presentationTimeUs := framePtsNs / 1000
  flags := if isKey then bufferFlagKeyFrame else 0

/-- A frame in an input buffer, as it was fed. -/
def FedFrame.input (index : Int32) (f : FedFrame) : QueuedInput :=
  queuedInput index f.framePtsNs f.coded f.isKeyframe

/-- Where a thread is in `feedBuffer`. -/
inductive FeedBuffer where
  | outside
  /-- in front of the block that takes the key-frame flag -/
  | filled (index : Int32) (framePtsNs : Int64) (data : List UInt8)
  /-- in front of `queueInputBuffer` -/
  | flagged (index : Int32) (framePtsNs : Int64) (data : List UInt8) (isKey : Bool)
  deriving DecidableEq, Repr

structure VideoDecoder where
  pendingData : List (Int64 × List UInt8)
  parkedIndices : List Int32
  pendingKeyframeFlags : Int64 → Option Bool

/-- The decoder with its two threads, and what was fed, granted and queued. -/
structure DecoderInput where
  decoder : VideoDecoder
  network : FeedBuffer
  codec : FeedBuffer
  fed : List FedFrame
  granted : List Int32
  queued : List QueuedInput

inductive DecoderLabel where
  /-- `feed` is called -/
  | feed (f : FedFrame)
  | onInputBufferAvailable (index : Int32)
  /-- `feedBuffer` goes on in the network thread -/
  | networkTurn
  | codecTurn
  deriving DecidableEq, Repr

namespace DecoderInput

def start : DecoderInput where
  decoder := ⟨[], [], fun _ => none⟩
  network := .outside
  codec := .outside
  fed := []
  granted := []
  queued := []

/-- The first block of `feed`, and `feedBuffer` where an index was parked. -/
def feed (s : DecoderInput) (f : FedFrame) : DecoderInput :=
  match s.network with
  | .outside =>
    let flags := Function.update s.decoder.pendingKeyframeFlags f.framePtsNs (some f.isKeyframe)
    match s.decoder.parkedIndices with
    | index :: parkedIndices =>
      { s with
        decoder := { s.decoder with parkedIndices := parkedIndices, pendingKeyframeFlags := flags }
        network := .filled index f.framePtsNs f.coded
        fed := s.fed ++ [f] }
    | [] =>
      { s with
        decoder := { s.decoder with
          pendingData := s.decoder.pendingData ++ [(f.framePtsNs, f.coded)]
          pendingKeyframeFlags := flags }
        fed := s.fed ++ [f] }
  | _ => s

/-- The block of `onInputBufferAvailable`, and `feedBuffer` where a frame was pending. -/
def onInputBufferAvailable (s : DecoderInput) (index : Int32) : DecoderInput :=
  match s.codec with
  | .outside =>
    match s.decoder.pendingData with
    | (framePtsNs, data) :: pendingData =>
      { s with
        decoder := { s.decoder with pendingData := pendingData }
        codec := .filled index framePtsNs data
        granted := s.granted ++ [index] }
    | [] =>
      { s with
        decoder := { s.decoder with parkedIndices := s.decoder.parkedIndices ++ [index] }
        granted := s.granted ++ [index] }
  | _ => s

/-- The block of `feedBuffer`: `remove`, or `false` where there is no flag. -/
def takeFlag (flags : Int64 → Option Bool) (framePtsNs : Int64) : Bool × (Int64 → Option Bool) :=
  ((flags framePtsNs).getD false, Function.update flags framePtsNs none)

def networkTurn (s : DecoderInput) : DecoderInput :=
  match s.network with
  | .outside => s
  | .filled index framePtsNs data =>
    let (isKey, flags) := takeFlag s.decoder.pendingKeyframeFlags framePtsNs
    { s with
      decoder := { s.decoder with pendingKeyframeFlags := flags }
      network := .flagged index framePtsNs data isKey }
  | .flagged index framePtsNs data isKey =>
    { s with network := .outside, queued := s.queued ++ [queuedInput index framePtsNs data isKey] }

def codecTurn (s : DecoderInput) : DecoderInput :=
  match s.codec with
  | .outside => s
  | .filled index framePtsNs data =>
    let (isKey, flags) := takeFlag s.decoder.pendingKeyframeFlags framePtsNs
    { s with
      decoder := { s.decoder with pendingKeyframeFlags := flags }
      codec := .flagged index framePtsNs data isKey }
  | .flagged index framePtsNs data isKey =>
    { s with codec := .outside, queued := s.queued ++ [queuedInput index framePtsNs data isKey] }

def step (s : DecoderInput) : DecoderLabel → DecoderInput
  | .feed f => s.feed f
  | .onInputBufferAvailable index => s.onInputBufferAvailable index
  | .networkTurn => s.networkTurn
  | .codecTurn => s.codecTurn

/-! ### The order of the frames -/

/-- The frames in the buffers of their grants, in order. -/
def matched (s : DecoderInput) : List QueuedInput := List.zipWith FedFrame.input s.granted s.fed

end DecoderInput

/-- The thread has the frame and the index, and the flag of the frame is at hand. -/
def FeedBuffer.Holds (b : FeedBuffer) (flags : Int64 → Option Bool) (index : Int32) (f : FedFrame) :
    Prop :=
  (b = .filled index f.framePtsNs f.coded ∧ flags f.framePtsNs = some f.isKeyframe) ∨
    b = .flagged index f.framePtsNs f.coded f.isKeyframe

/-- A new frame leaves the flags of the others. -/
theorem update_other {flags : Int64 → Option Bool} {f g : FedFrame} {b : Option Bool}
    (h : g.framePtsNs ≠ f.framePtsNs) :
    Function.update flags f.framePtsNs b g.framePtsNs = flags g.framePtsNs :=
  Function.update_of_ne h ..

theorem FeedBuffer.Holds.other {b : FeedBuffer} {flags : Int64 → Option Bool} {index : Int32}
    {f g : FedFrame} {x : Option Bool} (h : b.Holds flags index g)
    (hne : g.framePtsNs ≠ f.framePtsNs) : b.Holds (Function.update flags f.framePtsNs x) index g := by
  rcases h with ⟨hb, hflag⟩ | hb
  · exact .inl ⟨hb, (update_other hne).trans hflag⟩
  · exact .inr hb

namespace DecoderInput

/-- **Who holds a frame.**  At most one thread does.  While the network thread does, no frame is pending,
so the codec thread only parks; while the codec thread does, no index is parked, so the network thread only
lets frames pend. -/
inductive Holder (s : DecoderInput) : Prop where
  | neither (hnetwork : s.network = .outside) (hcodec : s.codec = .outside)
      (hmatched : s.matched = s.queued)
  | network (index : Int32) (f : FedFrame)
      (hholds : s.network.Holds s.decoder.pendingKeyframeFlags index f) (hcodec : s.codec = .outside)
      (hmatched : s.matched = s.queued ++ [f.input index]) (hpending : s.fed.drop s.granted.length = [])
  | codec (index : Int32) (f : FedFrame) (hnetwork : s.network = .outside)
      (hholds : s.codec.Holds s.decoder.pendingKeyframeFlags index f)
      (hmatched : s.matched = s.queued ++ [f.input index]) (hparked : s.granted.drop s.fed.length = [])
      (hfed : f ∈ s.fed) (hfresh : ∀ g ∈ s.fed.drop s.granted.length, g.framePtsNs ≠ f.framePtsNs)

/-- The queues hold what is not matched, and a frame that pends has its flag. -/
structure InOrder (s : DecoderInput) : Prop where
  pending : s.decoder.pendingData =
    (s.fed.drop s.granted.length).map fun f => (f.framePtsNs, f.coded)
  parked : s.decoder.parkedIndices = s.granted.drop s.fed.length
  flags : ∀ f ∈ s.fed.drop s.granted.length,
    s.decoder.pendingKeyframeFlags f.framePtsNs = some f.isKeyframe
  distinct : (s.fed.map FedFrame.framePtsNs).Nodup
  holder : s.Holder

/-- The frames have distinct time stamps. -/
def NewPts (s : DecoderInput) : DecoderLabel → Prop
  | .feed f => ∀ g ∈ s.fed, g.framePtsNs ≠ f.framePtsNs
  | _ => True

instance (s : DecoderInput) : ∀ l, Decidable (s.NewPts l)
  | .feed f => inferInstanceAs (Decidable (∀ g ∈ s.fed, g.framePtsNs ≠ f.framePtsNs))
  | .onInputBufferAvailable _ => inferInstanceAs (Decidable True)
  | .networkTurn => inferInstanceAs (Decidable True)
  | .codecTurn => inferInstanceAs (Decidable True)

variable {s : DecoderInput}

theorem inOrder_start : start.InOrder where
  pending := rfl
  parked := rfl
  flags := nofun
  distinct := List.nodup_nil
  holder := .neither rfl rfl rfl

theorem distinct_concat {fed : List FedFrame} {f : FedFrame}
    (h : (fed.map FedFrame.framePtsNs).Nodup) (hnew : ∀ g ∈ fed, g.framePtsNs ≠ f.framePtsNs) :
    ((fed ++ [f]).map FedFrame.framePtsNs).Nodup := by
  rw [List.map_append, List.nodup_append]
  refine ⟨h, List.pairwise_singleton _ _, ?_⟩
  intro pts hpts pts' hpts'
  obtain ⟨g, hg, rfl⟩ := List.mem_map.1 hpts
  rw [List.mem_singleton.1 hpts']
  exact hnew g hg

/-- `feed` with an index parked. -/
theorem inOrder_feed_parked {index : Int32} {parkedIndices : List Int32} {f : FedFrame} (hs : s.InOrder)
    (hnetwork : s.network = .outside) (hcodec : s.codec = .outside) (hmatched : s.matched = s.queued)
    (hnew : ∀ g ∈ s.fed, g.framePtsNs ≠ f.framePtsNs)
    (hparked : s.decoder.parkedIndices = index :: parkedIndices) : (s.feed f).InOrder := by
  have hdrop : s.granted.drop s.fed.length = index :: parkedIndices := hs.parked.symm.trans hparked
  have hlt : s.fed.length < s.granted.length := by
    have h := congrArg List.length hdrop
    rw [List.length_drop, List.length_cons] at h
    omega
  have hnone : s.fed.drop s.granted.length = [] := List.drop_eq_nil_of_le (Nat.le_of_lt hlt)
  have hnone' : (s.fed ++ [f]).drop s.granted.length = [] := by
    apply List.drop_eq_nil_of_le
    rw [List.length_append]
    exact hlt
  have hpending : s.decoder.pendingData = [] := by
    rw [hs.pending, hnone]
    rfl
  have hstep : s.feed f =
      { s with
        decoder :=
          { s.decoder with
            parkedIndices := parkedIndices
            pendingKeyframeFlags := Function.update s.decoder.pendingKeyframeFlags f.framePtsNs
              (some f.isKeyframe) }
        network := .filled index f.framePtsNs f.coded
        fed := s.fed ++ [f] } := by
    simp only [feed, hnetwork, hparked]
  rw [hstep]
  refine ⟨?_, ?_, ?_, distinct_concat hs.distinct hnew, ?_⟩
  · show s.decoder.pendingData = ((s.fed ++ [f]).drop s.granted.length).map _
    rw [hnone', hpending]
    rfl
  · exact (Rendezvous.drop_concat hdrop f).symm
  · intro g hg
    rw [hnone'] at hg
    cases hg
  · refine .network index f (.inl ⟨rfl, Function.update_self ..⟩) hcodec ?_ hnone'
    show List.zipWith FedFrame.input s.granted (s.fed ++ [f]) = _
    rw [Rendezvous.met_right _ hdrop]
    exact congrArg (· ++ _) hmatched

/-- `feed` with no index parked. -/
theorem inOrder_feed_pending {f : FedFrame} (hs : s.InOrder) (hnetwork : s.network = .outside)
    (hnew : ∀ g ∈ s.fed, g.framePtsNs ≠ f.framePtsNs) (hparked : s.decoder.parkedIndices = []) :
    (s.feed f).InOrder := by
  have hdrop : s.granted.drop s.fed.length = [] := hs.parked.symm.trans hparked
  have hle : s.granted.length ≤ s.fed.length := Rendezvous.le_of_drop_eq_nil hdrop
  have hpending : (s.fed ++ [f]).drop s.granted.length = s.fed.drop s.granted.length ++ [f] :=
    Rendezvous.drop_concat_of_le hle f
  have hnone : s.granted.drop (s.fed ++ [f]).length = [] := by
    apply List.drop_eq_nil_of_le
    rw [List.length_append]
    omega
  have hmatched : List.zipWith FedFrame.input s.granted (s.fed ++ [f]) = s.matched :=
    Rendezvous.met_right_of_le _ hle f
  have hstep : s.feed f =
      { s with
        decoder :=
          { s.decoder with
            pendingData := s.decoder.pendingData ++ [(f.framePtsNs, f.coded)]
            pendingKeyframeFlags := Function.update s.decoder.pendingKeyframeFlags f.framePtsNs
              (some f.isKeyframe) }
        fed := s.fed ++ [f] } := by
    simp only [feed, hnetwork, hparked]
  rw [hstep]
  refine ⟨?_, ?_, ?_, distinct_concat hs.distinct hnew, ?_⟩
  · show s.decoder.pendingData ++ _ = ((s.fed ++ [f]).drop s.granted.length).map _
    rw [hpending, List.map_append, hs.pending]
    rfl
  · show s.decoder.parkedIndices = s.granted.drop (s.fed ++ [f]).length
    rw [hparked, hnone]
  · intro g hg
    show Function.update s.decoder.pendingKeyframeFlags f.framePtsNs _ g.framePtsNs = _
    have hg' : g ∈ s.fed.drop s.granted.length ++ [f] := hpending ▸ hg
    rcases List.mem_append.1 hg' with hg' | hg'
    · rw [update_other (hnew g (List.mem_of_mem_drop hg'))]
      exact hs.flags g hg'
    · rw [List.mem_singleton.1 hg']
      exact Function.update_self ..
  · cases hs.holder with
    | neither _ hcodec hqueued => exact .neither hnetwork hcodec (hmatched.trans hqueued)
    | network index g hholds _ _ _ =>
        rcases hholds with ⟨h, -⟩ | h
        · rw [hnetwork] at h
          cases h
        · rw [hnetwork] at h
          cases h
    | codec index g _ hholds hqueued _ hfed hfresh =>
        refine .codec index g hnetwork (hholds.other (hnew g hfed)) (hmatched.trans hqueued) hnone
          (List.mem_append_left _ hfed) ?_
        intro g' hg'
        have hg'' : g' ∈ s.fed.drop s.granted.length ++ [f] := hpending ▸ hg'
        rcases List.mem_append.1 hg'' with h | h
        · exact hfresh g' h
        · rw [List.mem_singleton.1 h]
          exact (hnew g hfed).symm

theorem inOrder_feed {f : FedFrame} (hs : s.InOrder)
    (hnew : ∀ g ∈ s.fed, g.framePtsNs ≠ f.framePtsNs) : (s.feed f).InOrder := by
  cases hnetwork : s.network with
  | outside =>
      cases hparked : s.decoder.parkedIndices with
      | nil => exact inOrder_feed_pending hs hnetwork hnew hparked
      | cons index parkedIndices =>
          cases hs.holder with
          | neither _ hcodec hmatched =>
              exact inOrder_feed_parked hs hnetwork hcodec hmatched hnew hparked
          | network index f hholds _ _ _ =>
              rcases hholds with ⟨h, -⟩ | h
              · rw [hnetwork] at h
                cases h
              · rw [hnetwork] at h
                cases h
          | codec _ _ _ _ _ hnone _ _ =>
              rw [hs.parked, hnone] at hparked
              cases hparked
  | filled index framePtsNs data =>
      simp only [feed, hnetwork]
      exact hs
  | flagged index framePtsNs data isKey =>
      simp only [feed, hnetwork]
      exact hs

/-- A grant with a frame pending. -/
theorem inOrder_grant_pending {index : Int32} {f : FedFrame} {rest : List FedFrame} (hs : s.InOrder)
    (hnetwork : s.network = .outside) (hcodec : s.codec = .outside) (hmatched : s.matched = s.queued)
    (hdrop : s.fed.drop s.granted.length = f :: rest) : (s.onInputBufferAvailable index).InOrder := by
  have hlt : s.granted.length < s.fed.length := by
    have h := congrArg List.length hdrop
    rw [List.length_drop, List.length_cons] at h
    omega
  have hpending : s.decoder.pendingData =
      (f.framePtsNs, f.coded) :: rest.map fun f => (f.framePtsNs, f.coded) := by
    rw [hs.pending, hdrop]
    rfl
  have hrest : s.fed.drop (s.granted ++ [index]).length = rest := Rendezvous.drop_concat hdrop index
  have hmem : ∀ g ∈ f :: rest, g ∈ s.fed := by
    intro g hg
    rw [← hdrop] at hg
    exact List.mem_of_mem_drop hg
  have hnone : s.granted.drop s.fed.length = [] := List.drop_eq_nil_of_le (Nat.le_of_lt hlt)
  have hnone' : (s.granted ++ [index]).drop s.fed.length = [] := by
    apply List.drop_eq_nil_of_le
    rw [List.length_append]
    exact hlt
  have hstep : s.onInputBufferAvailable index =
      { s with
        decoder := { s.decoder with pendingData := rest.map fun f => (f.framePtsNs, f.coded) }
        codec := .filled index f.framePtsNs f.coded
        granted := s.granted ++ [index] } := by
    simp only [onInputBufferAvailable, hcodec, hpending]
  rw [hstep]
  refine ⟨?_, ?_, ?_, hs.distinct, ?_⟩
  · show _ = (s.fed.drop (s.granted ++ [index]).length).map _
    rw [hrest]
  · show s.decoder.parkedIndices = (s.granted ++ [index]).drop s.fed.length
    rw [hs.parked, hnone, hnone']
  · intro g hg
    have hg' : g ∈ rest := hrest ▸ hg
    exact hs.flags g (by rw [hdrop]; exact List.mem_cons_of_mem _ hg')
  · refine .codec index f hnetwork (.inl ⟨rfl, hs.flags f (by rw [hdrop]; exact List.mem_cons_self)⟩)
      ?_ hnone' (hmem f List.mem_cons_self) ?_
    · show List.zipWith FedFrame.input (s.granted ++ [index]) s.fed = _
      rw [Rendezvous.met_left _ hdrop]
      exact congrArg (· ++ _) hmatched
    · intro g hg
      have hg' : g ∈ rest := hrest ▸ hg
      have hnodup : ((f :: rest).map FedFrame.framePtsNs).Nodup := by
        rw [← hdrop]
        exact hs.distinct.sublist ((List.drop_sublist ..).map _)
      rw [List.map_cons, List.nodup_cons] at hnodup
      intro heq
      apply hnodup.1
      rw [← heq]
      exact List.mem_map_of_mem hg'

/-- A grant with no frame pending. -/
theorem inOrder_grant_parked {index : Int32} (hs : s.InOrder) (hcodec : s.codec = .outside)
    (hnone : s.fed.drop s.granted.length = []) : (s.onInputBufferAvailable index).InOrder := by
  have hle : s.fed.length ≤ s.granted.length := Rendezvous.le_of_drop_eq_nil hnone
  have hpending : s.decoder.pendingData = [] := by
    rw [hs.pending, hnone]
    rfl
  have hnone' : s.fed.drop (s.granted ++ [index]).length = [] := by
    apply List.drop_eq_nil_of_le
    rw [List.length_append]
    omega
  have hmatched : List.zipWith FedFrame.input (s.granted ++ [index]) s.fed = s.matched :=
    Rendezvous.met_left_of_le _ hle index
  have hstep : s.onInputBufferAvailable index =
      { s with
        decoder := { s.decoder with parkedIndices := s.decoder.parkedIndices ++ [index] }
        granted := s.granted ++ [index] } := by
    simp only [onInputBufferAvailable, hcodec, hpending]
  rw [hstep]
  refine ⟨?_, ?_, ?_, hs.distinct, ?_⟩
  · show s.decoder.pendingData = (s.fed.drop (s.granted ++ [index]).length).map _
    rw [hpending, hnone']
    rfl
  · show s.decoder.parkedIndices ++ [index] = (s.granted ++ [index]).drop s.fed.length
    rw [hs.parked, Rendezvous.drop_concat_of_le hle]
  · intro g hg
    rw [hnone'] at hg
    cases hg
  · cases hs.holder with
    | neither hnetwork _ hqueued => exact .neither hnetwork hcodec (hmatched.trans hqueued)
    | network i f hholds _ hqueued _ =>
        exact .network i f hholds hcodec (hmatched.trans hqueued) hnone'
    | codec i f _ hholds _ _ _ _ =>
        rcases hholds with ⟨h, -⟩ | h
        · rw [hcodec] at h
          cases h
        · rw [hcodec] at h
          cases h

theorem inOrder_grant {index : Int32} (hs : s.InOrder) : (s.onInputBufferAvailable index).InOrder := by
  cases hcodec : s.codec with
  | outside =>
      cases hdrop : s.fed.drop s.granted.length with
      | nil => exact inOrder_grant_parked hs hcodec hdrop
      | cons f rest =>
          cases hs.holder with
          | neither hnetwork _ hmatched =>
              exact inOrder_grant_pending hs hnetwork hcodec hmatched hdrop
          | network _ _ _ _ _ hnone =>
              rw [hdrop] at hnone
              cases hnone
          | codec _ _ _ hholds _ _ _ _ =>
              rcases hholds with ⟨h, -⟩ | h
              · rw [hcodec] at h
                cases h
              · rw [hcodec] at h
                cases h
  | filled i framePtsNs data =>
      simp only [onInputBufferAvailable, hcodec]
      exact hs
  | flagged i framePtsNs data isKey =>
      simp only [onInputBufferAvailable, hcodec]
      exact hs

/-- The flag of a frame that a thread holds. -/
theorem takeFlag_eq {flags : Int64 → Option Bool} {f : FedFrame}
    (h : flags f.framePtsNs = some f.isKeyframe) :
    takeFlag flags f.framePtsNs = (f.isKeyframe, Function.update flags f.framePtsNs none) := by
  rw [takeFlag, h]
  rfl

theorem inOrder_networkTurn (hs : s.InOrder) : s.networkTurn.InOrder := by
  cases hs.holder with
  | neither hnetwork _ _ =>
      simp only [networkTurn, hnetwork]
      exact hs
  | network index f hholds hcodec hmatched hnone =>
      rcases hholds with ⟨hnetwork, hflag⟩ | hnetwork
      · simp only [networkTurn, hnetwork, takeFlag_eq hflag]
        refine ⟨hs.pending, hs.parked, ?_, hs.distinct,
          .network index f (.inr rfl) hcodec hmatched hnone⟩
        intro g hg
        rw [hnone] at hg
        cases hg
      · simp only [networkTurn, hnetwork]
        exact ⟨hs.pending, hs.parked, hs.flags, hs.distinct, .neither rfl hcodec hmatched⟩
  | codec _ _ hnetwork _ _ _ _ _ =>
      simp only [networkTurn, hnetwork]
      exact hs

theorem inOrder_codecTurn (hs : s.InOrder) : s.codecTurn.InOrder := by
  cases hs.holder with
  | neither _ hcodec _ =>
      simp only [codecTurn, hcodec]
      exact hs
  | network _ _ _ hcodec _ _ =>
      simp only [codecTurn, hcodec]
      exact hs
  | codec index f hnetwork hholds hmatched hparked hfed hfresh =>
      rcases hholds with ⟨hcodec, hflag⟩ | hcodec
      · simp only [codecTurn, hcodec, takeFlag_eq hflag]
        refine ⟨hs.pending, hs.parked, ?_, hs.distinct,
          .codec index f hnetwork (.inr rfl) hmatched hparked hfed hfresh⟩
        intro g hg
        exact (update_other (hfresh g hg)).trans (hs.flags g hg)
      · simp only [codecTurn, hcodec]
        exact ⟨hs.pending, hs.parked, hs.flags, hs.distinct, .neither hnetwork rfl hmatched⟩

theorem inOrder_step (l : DecoderLabel) (hs : s.InOrder) (hl : s.NewPts l) : (s.step l).InOrder := by
  cases l with
  | feed f => exact inOrder_feed hs hl
  | onInputBufferAvailable index => exact inOrder_grant hs
  | networkTurn => exact inOrder_networkTurn hs
  | codecTurn => exact inOrder_codecTurn hs

theorem queued_prefix_matched (hs : s.InOrder) : s.queued <+: s.matched := by
  cases hs.holder with
  | neither _ _ hmatched => exact ⟨[], (List.append_nil _).trans hmatched.symm⟩
  | network _ _ _ _ hmatched _ =>
      rw [hmatched]
      exact List.prefix_append ..
  | codec _ _ _ _ hmatched _ _ _ =>
      rw [hmatched]
      exact List.prefix_append ..

/-- **Frames reach the codec in order.**  The `k`-th buffer that is queued is the `k`-th one granted, with
the `k`-th frame that was fed, its time stamp and its own key-frame flag; and an index and a frame are
never both kept back. -/
theorem queued_in_order {is : List DecoderLabel} (h : Run.Steps step NewPts start is) :
    let s := is.foldl step start
    s.queued <+: List.zipWith FedFrame.input s.granted s.fed ∧
      (s.decoder.parkedIndices = [] ∨ s.decoder.pendingData = []) := by
  intro s
  have hs : s.InOrder := h.invariant (fun _ l hs hl => inOrder_step l hs hl) inOrder_start
  refine ⟨queued_prefix_matched hs, ?_⟩
  rcases Rendezvous.drop_eq_nil_or s.granted s.fed with hnone | hnone
  · exact .inl (hs.parked.trans hnone)
  · right
    rw [hs.pending, hnone]
    rfl

/-- A keyframe pends until an index is granted, the next frame is fed while the codec thread holds it, and
the third finds an index parked. -/
def threeFrames : List DecoderLabel :=
  [.feed ⟨1000, [0x65], true⟩, .onInputBufferAvailable 7, .feed ⟨2000, [0x41], false⟩, .codecTurn, .codecTurn,
    .onInputBufferAvailable 8, .codecTurn, .codecTurn, .onInputBufferAvailable 7, .feed ⟨3000, [0x41], false⟩,
    .networkTurn, .onInputBufferAvailable 8, .networkTurn]

theorem queued_in_order_three_frames :
    (threeFrames.foldl step start).queued <+:
        List.zipWith FedFrame.input (threeFrames.foldl step start).granted
          (threeFrames.foldl step start).fed ∧
      (threeFrames.foldl step start).queued =
        [⟨7, [0x65], 1, 1⟩, ⟨8, [0x41], 2, 0⟩, ⟨7, [0x41], 3, 0⟩] :=
  ⟨(queued_in_order (by decide +kernel)).1, by decide +kernel⟩

end DecoderInput

end Penflow.Client
