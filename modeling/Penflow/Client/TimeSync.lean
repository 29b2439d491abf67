import Mathlib.Data.Int.ConditionallyCompleteOrder
import Mathlib.Data.Real.Basic
import Penflow.Lib.ClockOffset
import Penflow.Lib.SlidingWindow

/-!
# The clock-offset estimator

`TimeSync` keeps the samples of the last `windowMs` and publishes the offset of the one with the least
round trip.  Times are in nanoseconds; `Long` arithmetic is that of `ℤ` as long as it does not overflow.
-/

namespace Penflow.Client

/-- The stamps of one exchange: the request is sent by the client and received by the PC, the response
sent by the PC and received by the client. -/
structure SyncStamps where
  t1 : ℤ
  t2 : ℤ
  t3 : ℤ
  t4 : ℤ
  deriving DecidableEq, Repr

/-- `TimeSync.Sample` -/
structure SyncSample where
  rttNs : ℤ
  offsetNs : ℤ
  recvNs : ℤ
  deriving DecidableEq, Repr

namespace SyncStamps

def rtt (e : SyncStamps) : ℤ := (e.t4 - e.t1) - (e.t3 - e.t2)

/-- The sample of an exchange; `Long` division rounds towards zero. -/
def sample (e : SyncStamps) : SyncSample where
  rttNs := e.rtt
  offsetNs := e.t2 - (e.t1 + e.rtt.tdiv 2)
  recvNs := e.t4

end SyncStamps

structure TimeSync where
  windowMs : ℤ
  samples : List SyncSample
  pcMinusAndroidNs : ℤ
  bestRttNs : ℤ
  totalSampleCount : Int32
  windowSampleCount : ℕ
  oldestSampleRecvNs : ℤ
  deriving DecidableEq, Repr

namespace TimeSync

/-- A new estimator. -/
def fresh (windowMs : ℤ) : TimeSync where
  windowMs := windowMs
  samples := []
  pcMinusAndroidNs := 0
  bestRttNs := 2 ^ 63 - 1
  totalSampleCount := 0
  windowSampleCount := 0
  oldestSampleRecvNs := 0

/-- The oldest receive time that is still in the window at `t4`. -/
def cutoffNs (windowMs t4 : ℤ) : ℤ := t4 - windowMs * 1000000

/-- `first()` of an empty deque throws, and leaves what was written before. -/
def observe (s : TimeSync) (e : SyncStamps) : TimeSync :=
  if e.rtt < 0 then s
  else
    let totalSampleCount := s.totalSampleCount + 1
    let samples := (s.samples ++ [e.sample]).dropWhile fun x => x.recvNs < cutoffNs s.windowMs e.t4
    match samples with
    | [] => { s with samples := [], totalSampleCount := totalSampleCount }
    | first :: _ =>
      let best := samples.foldl (fun best x => if x.rttNs < best.rttNs then x else best) first
      { s with
        samples := samples
        totalSampleCount := totalSampleCount
        pcMinusAndroidNs := best.offsetNs
        bestRttNs := best.rttNs
        windowSampleCount := samples.length
        oldestSampleRecvNs := first.recvNs }

def reset (s : TimeSync) : TimeSync :=
  { s with
    samples := []
    pcMinusAndroidNs := 0
    bestRttNs := 2 ^ 63 - 1
    totalSampleCount := 0
    windowSampleCount := 0
    oldestSampleRecvNs := 0 }

end TimeSync

/-- A call of the estimator. -/
inductive SyncCall where
  | observe (e : SyncStamps)
  | reset
  deriving DecidableEq, Repr

def TimeSync.call (s : TimeSync) : SyncCall → TimeSync
  | .observe e => s.observe e
  | .reset => s.reset

/-- `t4` of the observations. -/
def SyncCall.t4? : SyncCall → Option ℤ
  | .observe e => some e.t4
  | .reset => none

/-! ### The window -/

/-- The samples accepted since the last reset, after one more call. -/
def acceptCall (accepted : List SyncSample) : SyncCall → List SyncSample
  | .observe e => if e.rtt < 0 then accepted else accepted ++ [e.sample]
  | .reset => []

/-- The samples accepted since the last reset. -/
def acceptedSamples (calls : List SyncCall) : List SyncSample := calls.foldl acceptCall []

/-- Those of them in the window of the last one. -/
def inWindow (windowMs : ℤ) (accepted : List SyncSample) : List SyncSample :=
  SlidingWindow.window SyncSample.recvNs (TimeSync.cutoffNs windowMs) accepted

/-- What the estimator publishes of its samples. -/
structure TimeSync.Publishes (s : TimeSync) : Prop where
  best : ∀ best ∈ s.samples.argmin SyncSample.rttNs,
    s.bestRttNs = best.rttNs ∧ s.pcMinusAndroidNs = best.offsetNs
  windowSampleCount : s.windowSampleCount = s.samples.length
  oldest : s.oldestSampleRecvNs = (s.samples.head?.map SyncSample.recvNs).getD 0

namespace TimeSync

theorem cutoffNs_mono (windowMs : ℤ) : Monotone (cutoffNs windowMs) := by
  intro t t' h
  rw [cutoffNs, cutoffNs]
  omega

theorem observe_windowMs (s : TimeSync) (e : SyncStamps) : (s.observe e).windowMs = s.windowMs := by
  rw [observe]
  split
  · rfl
  · dsimp only
    split <;> rfl

theorem observe_samples {s : TimeSync} {e : SyncStamps} (h : ¬ e.rtt < 0) :
    (s.observe e).samples =
      SlidingWindow.slide SyncSample.recvNs (cutoffNs s.windowMs) s.samples e.sample := by
  rw [observe, if_neg h]
  dsimp only
  split
  next hnil => exact hnil.symm
  next hcons => rfl

end TimeSync

theorem acceptedSamples_concat (calls : List SyncCall) (c : SyncCall) :
    acceptedSamples (calls ++ [c]) = acceptCall (acceptedSamples calls) c := by
  rw [acceptedSamples, List.foldl_concat]
  rfl

/-- The accepted samples have their receive times from the observations, in order. -/
theorem acceptedSamples_sublist (calls : List SyncCall) :
    ((acceptedSamples calls).map SyncSample.recvNs).Sublist (calls.filterMap SyncCall.t4?) := by
  induction calls using List.reverseRecOn with
  | nil => exact List.Sublist.slnil
  | append_singleton calls c ih =>
      rw [acceptedSamples_concat, List.filterMap_append]
      cases c with
      | reset => exact List.nil_sublist _
      | observe e =>
          rw [acceptCall]
          split
          · exact ih.trans (List.sublist_append_left ..)
          · rw [List.map_append]
            exact ih.append_right _

theorem acceptedSamples_ordered {calls : List SyncCall}
    (h : (calls.filterMap SyncCall.t4?).Pairwise (· ≤ ·)) :
    SlidingWindow.Ordered SyncSample.recvNs (acceptedSamples calls) :=
  List.pairwise_map.1 (h.sublist (acceptedSamples_sublist calls))

/-- A window that does not reach its own newest sample holds none. -/
theorem inWindow_eq_nil {windowMs : ℤ} {accepted : List SyncSample}
    (hordered : SlidingWindow.Ordered SyncSample.recvNs accepted) (hneg : windowMs < 0) :
    inWindow windowMs accepted = [] := by
  rcases List.eq_nil_or_concat' accepted with rfl | ⟨init, last, rfl⟩
  · rfl
  · rw [inWindow, SlidingWindow.window_concat, List.filter_eq_nil_iff]
    intro x hx
    have hle : x.recvNs ≤ last.recvNs := hordered.le_last List.getLast?_concat hx
    rw [decide_eq_true_eq, TimeSync.cutoffNs]
    omega

namespace TimeSync

theorem publishes_fresh (windowMs : ℤ) : (fresh windowMs).Publishes where
  best := by
    intro best h
    cases h
  windowSampleCount := rfl
  oldest := rfl

/-- An observation that leaves samples publishes the best of them. -/
theorem publishes_observe {s : TimeSync} {e : SyncStamps} (h : ¬ e.rtt < 0)
    (hsamples : (s.observe e).samples ≠ []) : (s.observe e).Publishes := by
  have hslide := observe_samples (s := s) h
  rw [hslide] at hsamples
  cases hheld : SlidingWindow.slide SyncSample.recvNs (cutoffNs s.windowMs) s.samples e.sample with
  | nil => exact absurd hheld hsamples
  | cons first rest =>
      have hobserve : s.observe e =
          { s with
            samples := first :: rest
            totalSampleCount := s.totalSampleCount + 1
            pcMinusAndroidNs :=
              (SlidingWindow.scan SyncSample.rttNs first (first :: rest)).offsetNs
            bestRttNs := (SlidingWindow.scan SyncSample.rttNs first (first :: rest)).rttNs
            windowSampleCount := (first :: rest).length
            oldestSampleRecvNs := first.recvNs } := by
        rw [SlidingWindow.slide] at hheld
        have hrecv : e.sample.recvNs = e.t4 := rfl
        rw [hrecv] at hheld
        simp only [observe, if_neg h, hheld]
        rfl
      rw [hobserve]
      refine ⟨?_, rfl, rfl⟩
      intro best hbest
      rw [SlidingWindow.argmin_eq_scan] at hbest
      cases hbest
      exact ⟨rfl, rfl⟩

/-- An observation that throws publishes nothing. -/
theorem publishes_thrown {s : TimeSync} {e : SyncStamps} (h : ¬ e.rtt < 0) (hs : s.Publishes)
    (hbefore : s.samples = []) (hafter : (s.observe e).samples = []) : (s.observe e).Publishes := by
  have hslide := (observe_samples (s := s) h).symm.trans hafter
  have hobserve : s.observe e =
      { s with samples := [], totalSampleCount := s.totalSampleCount + 1 } := by
    rw [SlidingWindow.slide] at hslide
    have hrecv : e.sample.recvNs = e.t4 := rfl
    rw [hrecv] at hslide
    simp only [observe, if_neg h, hslide]
  have hcount := hs.windowSampleCount
  have holdest := hs.oldest
  rw [hbefore] at hcount holdest
  rw [hobserve]
  refine ⟨?_, hcount, holdest⟩
  intro best hbest
  cases hbest

/-- The samples are those in the window, and the published fields are of them. -/
structure Follows (s : TimeSync) (windowMs : ℤ) (calls : List SyncCall) : Prop where
  span : s.windowMs = windowMs
  samples : s.samples = inWindow windowMs (acceptedSamples calls)
  publishes : s.Publishes

theorem follows_observe {s : TimeSync} {windowMs : ℤ} {calls : List SyncCall} {e : SyncStamps}
    (hs : s.Follows windowMs calls)
    (h : ((calls ++ [SyncCall.observe e]).filterMap SyncCall.t4?).Pairwise (· ≤ ·)) :
    (s.observe e).Follows windowMs (calls ++ [SyncCall.observe e]) := by
  have hordered := acceptedSamples_ordered h
  rw [acceptedSamples_concat] at hordered
  by_cases hrtt : e.rtt < 0
  · have hsame : s.observe e = s := if_pos hrtt
    have haccept : acceptCall (acceptedSamples calls) (.observe e) = acceptedSamples calls :=
      if_pos hrtt
    refine ⟨?_, ?_, ?_⟩
    · rw [hsame]
      exact hs.span
    · rw [hsame, acceptedSamples_concat, haccept]
      exact hs.samples
    · rw [hsame]
      exact hs.publishes
  · have haccept : acceptCall (acceptedSamples calls) (.observe e) =
        acceptedSamples calls ++ [e.sample] := if_neg hrtt
    rw [haccept] at hordered
    have hsamples : (s.observe e).samples = inWindow windowMs (acceptedSamples (calls ++ [SyncCall.observe e])) := by
      rw [observe_samples hrtt, hs.span, hs.samples, acceptedSamples_concat, haccept]
      exact (SlidingWindow.window_slide (cutoffNs_mono windowMs) hordered).symm
    refine ⟨(observe_windowMs s e).trans hs.span, hsamples, ?_⟩
    by_cases hneg : windowMs < 0
    · have hbefore : s.samples = [] := by
        rw [hs.samples]
        exact inWindow_eq_nil (List.pairwise_append.1 hordered).1 hneg
      apply publishes_thrown hrtt hs.publishes hbefore
      rw [hsamples, acceptedSamples_concat, haccept]
      exact inWindow_eq_nil hordered hneg
    · apply publishes_observe hrtt
      rw [hsamples, acceptedSamples_concat, haccept]
      apply List.ne_nil_of_mem (a := e.sample)
      apply SlidingWindow.last_mem_window List.getLast?_concat
      rw [cutoffNs]
      omega

theorem follows_run (windowMs : ℤ) {calls : List SyncCall}
    (h : (calls.filterMap SyncCall.t4?).Pairwise (· ≤ ·)) :
    (calls.foldl call (fresh windowMs)).Follows windowMs calls := by
  induction calls using List.reverseRecOn with
  | nil => exact ⟨rfl, rfl, publishes_fresh windowMs⟩
  | append_singleton calls c ih =>
      rw [List.foldl_concat]
      have hs := ih (h.sublist ((List.sublist_append_left calls [c]).filterMap _))
      cases c with
      | observe e => exact follows_observe hs h
      | reset =>
          refine ⟨hs.span, ?_, ?_⟩
          · rw [acceptedSamples_concat]
            rfl
          · refine ⟨?_, rfl, rfl⟩
            intro best hbest
            cases hbest

/-- **The window.**  After any calls with `t4` in order, the samples held are the ones accepted since the
last reset that are in the window of the last of them; where there are any, the published round trip and
offset are those of the first sample with the least round trip; an observation with a negative round trip
changes nothing, and a reset leaves a new estimator. -/
theorem window_run (windowMs : ℤ) {calls : List SyncCall}
    (h : (calls.filterMap SyncCall.t4?).Pairwise (· ≤ ·)) :
    let s := calls.foldl call (fresh windowMs)
    s.samples = inWindow windowMs (acceptedSamples calls) ∧
      (s.samples ≠ [] → ∃ best ∈ s.samples,
        (∀ x ∈ s.samples, best.rttNs ≤ x.rttNs) ∧
        (∀ x ∈ s.samples, x.rttNs = best.rttNs → s.samples.idxOf best ≤ s.samples.idxOf x) ∧
        s.bestRttNs = best.rttNs ∧ s.pcMinusAndroidNs = best.offsetNs) ∧
      (∀ e : SyncStamps, e.rtt < 0 → s.observe e = s) ∧
      s.reset = fresh windowMs := by
  intro s
  have hs : s.Follows windowMs calls := follows_run windowMs h
  refine ⟨hs.samples, ?_, ?_, ?_⟩
  · intro hsome
    have hbest : s.samples.argmin SyncSample.rttNs ≠ none :=
      fun hnone => hsome (List.argmin_eq_none.1 hnone)
    obtain ⟨best, hbest⟩ := Option.ne_none_iff_exists'.1 hbest
    refine ⟨best, List.argmin_mem hbest, ?_, ?_, hs.publishes.best best hbest⟩
    · intro x hx
      exact List.le_of_mem_argmin hx hbest
    · intro x hx heq
      exact List.index_of_argmin hbest hx heq.le
  · intro e he
    exact if_pos he
  · have hspan := hs.span
    rw [reset, hspan]
    rfl

/-- A lucky exchange, one that is rejected, and two slower ones, the second behind the window. -/
def pings : List SyncCall :=
  [.observe ⟨0, 100, 150, 400⟩, .observe ⟨500, 600, 900, 700⟩, .observe ⟨3000000, 3000300, 3000300, 3000900⟩,
    .observe ⟨6000000, 6000500, 6000500, 6000900⟩]

theorem window_run_pings :
    (pings.foldl call (fresh 5)).samples = inWindow 5 (acceptedSamples pings) ∧
      (pings.foldl call (fresh 5)).bestRttNs = 900 :=
  ⟨(window_run 5 (by decide)).1, by decide⟩

end TimeSync

/-! ### Drift -/

/-- The PC clock reads `s + θ s` at the client's time `s`: the exchange has local times of the request and
the response that its stamps fit. -/
def SyncStamps.Timed (e : SyncStamps) (θ : ℝ → ℝ) : Prop :=
  ∃ x : ClockOffset.Exchange ℝ, x.t₁ = e.t1 ∧ x.t₂ θ = e.t2 ∧ x.t₃ θ = e.t3 ∧ x.t₄ = e.t4

/-- The exchanges are all accepted, so the samples are theirs. -/
theorem acceptedSamples_observed {es : List SyncStamps} (h : ∀ e ∈ es, 0 ≤ e.rtt) :
    acceptedSamples (es.map .observe) = es.map SyncStamps.sample := by
  induction es using List.reverseRecOn with
  | nil => rfl
  | append_singleton es e ih =>
      have he : ¬ e.rtt < 0 := not_lt.2 (h e List.mem_concat_self)
      rw [List.map_append, List.map_singleton, acceptedSamples_concat,
        ih fun e' he' => h e' (List.mem_append_left _ he'), acceptCall, if_neg he, List.map_append,
        List.map_singleton]

/-- The offset of a sample is off by at most half its round trip, rounded down, and a nanosecond, and the
drift since its exchange began. -/
theorem SyncStamps.offset_error {e : SyncStamps} {θ : ℝ → ℝ} {ρ t : ℝ}
    (hθ : ClockOffset.Drifts θ ρ) (htimed : e.Timed θ) (hrtt : 0 ≤ e.rtt) (ht : (e.t4 : ℝ) ≤ t) :
    |(e.sample.offsetNs : ℝ) - θ t| ≤
      (e.rtt / 2 : ℤ) + ρ * ((t - e.t4) + 2 * (e.t4 - e.t1)) + 1 := by
  obtain ⟨x, h₁, h₂, h₃, h₄⟩ := htimed
  have hexact := x.offset_error hθ (t := t) (by rw [h₄]; exact ht)
  have hxrtt : x.rtt θ = e.rtt := by
    rw [ClockOffset.Exchange.rtt, h₁, h₂, h₃, h₄, rtt]
    push_cast
    ring
  have hoffset : x.offset θ = e.t2 - (e.t1 + (e.rtt : ℝ) / 2) := by
    rw [ClockOffset.Exchange.offset_eq, hxrtt, h₁, h₂]
  have hsample : e.sample.offsetNs = e.t2 - (e.t1 + e.rtt / 2) := by
    rw [sample, Int.tdiv_eq_ediv_of_nonneg hrtt]
  rw [hoffset, hxrtt, h₁, h₄] at hexact
  rw [hsample]
  have hlow : 2 * (e.rtt / 2) ≤ e.rtt := by omega
  have hhigh : e.rtt ≤ 2 * (e.rtt / 2) + 1 := by omega
  have hlow' : 2 * ((e.rtt / 2 : ℤ) : ℝ) ≤ e.rtt := by exact_mod_cast hlow
  have hhigh' : (e.rtt : ℝ) ≤ 2 * ((e.rtt / 2 : ℤ) : ℝ) + 1 := by exact_mod_cast hhigh
  obtain ⟨hleft, hright⟩ := abs_le.1 hexact
  rw [abs_le]
  push_cast
  constructor
  · linarith
  · linarith

namespace TimeSync

/-- The window holds the sample of the last exchange, so one of its samples is chosen. -/
theorem exists_chosen {s : TimeSync} {windowMs : ℤ} {es : List SyncStamps} {now : SyncStamps}
    (hsamples : s.samples = inWindow windowMs (es.map SyncStamps.sample)) (hnow : es.getLast? = some now)
    (hwindow : 0 ≤ windowMs) : ∃ chosen ∈ es, chosen.sample ∈ s.samples.argmin SyncSample.rttNs := by
  have hlast : (es.map SyncStamps.sample).getLast? = some now.sample := by
    rw [List.getLast?_map, hnow]
    rfl
  have hmem : now.sample ∈ s.samples := by
    rw [hsamples]
    apply SlidingWindow.last_mem_window hlast
    rw [cutoffNs]
    omega
  have hbest : s.samples.argmin SyncSample.rttNs ≠ none := by
    intro hnone
    exact List.ne_nil_of_mem hmem (List.argmin_eq_none.1 hnone)
  obtain ⟨best, hbest⟩ := Option.ne_none_iff_exists'.1 hbest
  have hfrom : best ∈ es.map SyncStamps.sample := by
    have h := List.argmin_mem hbest
    rw [hsamples] at h
    exact SlidingWindow.window_subset _ h
  obtain ⟨chosen, hchosen, rfl⟩ := List.mem_map.1 hfrom
  exact ⟨chosen, hchosen, hbest⟩

/-- A sample of the window is not older than the window is long. -/
theorem chosen_age {s : TimeSync} {windowMs : ℤ} {es : List SyncStamps} {now chosen : SyncStamps}
    (hsamples : s.samples = inWindow windowMs (es.map SyncStamps.sample)) (hnow : es.getLast? = some now)
    (hbest : chosen.sample ∈ s.samples.argmin SyncSample.rttNs) :
    now.t4 - chosen.t4 ≤ windowMs * 10 ^ 6 := by
  have hlast : (es.map SyncStamps.sample).getLast? = some now.sample := by
    rw [List.getLast?_map, hnow]
    rfl
  have hheld : chosen.sample ∈ inWindow windowMs (es.map SyncStamps.sample) := by
    rw [← hsamples]
    exact List.argmin_mem hbest
  have hcutoff : now.t4 - windowMs * 1000000 ≤ chosen.t4 := SlidingWindow.le_of_mem_window hlast hheld
  omega

/-- **Accuracy under drift.**  After any accepted exchanges, the last of which is `now`, the published
offset is off by at most half the published round trip and a nanosecond, and the drift over the window and
twice the span of the exchange whose sample was chosen. -/
theorem accuracy {θ : ℝ → ℝ} {ρ : ℝ} {windowMs : ℤ} {es : List SyncStamps} {now : SyncStamps}
    (hθ : ClockOffset.Drifts θ ρ) (hrtt : ∀ e ∈ es, 0 ≤ e.rtt) (htimed : ∀ e ∈ es, e.Timed θ)
    (horder : (es.map SyncStamps.t4).Pairwise (· ≤ ·)) (hnow : es.getLast? = some now) :
    let s := (es.map SyncCall.observe).foldl call (fresh windowMs)
    (0 ≤ windowMs → ∃ chosen ∈ es, chosen.sample ∈ s.samples.argmin SyncSample.rttNs) ∧
      (∀ chosen ∈ es, chosen.sample ∈ s.samples.argmin SyncSample.rttNs →
        |(s.pcMinusAndroidNs : ℝ) - θ now.t4| ≤
          (s.bestRttNs / 2 : ℤ) + ρ * (windowMs * 10 ^ 6 + 2 * (chosen.t4 - chosen.t1)) + 1) ∧
      (0 ≤ windowMs → ρ = 0 →
        |(s.pcMinusAndroidNs : ℝ) - θ now.t4| ≤ (s.bestRttNs / 2 : ℤ) + 1) := by
  intro s
  have hcalls : ((es.map SyncCall.observe).filterMap SyncCall.t4?).Pairwise (· ≤ ·) := by
    rw [List.filterMap_map]
    have heq : (es.filterMap (SyncCall.t4? ∘ SyncCall.observe)) = es.map SyncStamps.t4 :=
      congrFun (List.filterMap_eq_map (f := SyncStamps.t4)) es
    rw [heq]
    exact horder
  have hs : s.Follows windowMs (es.map SyncCall.observe) := follows_run windowMs hcalls
  have hsamples : s.samples = inWindow windowMs (es.map SyncStamps.sample) := by
    rw [hs.samples, acceptedSamples_observed hrtt]
  have hbound : ∀ chosen ∈ es, chosen.sample ∈ s.samples.argmin SyncSample.rttNs →
      |(s.pcMinusAndroidNs : ℝ) - θ now.t4| ≤
        (s.bestRttNs / 2 : ℤ) + ρ * (windowMs * 10 ^ 6 + 2 * (chosen.t4 - chosen.t1)) + 1 := by
    intro chosen hchosen hbest
    obtain ⟨hbestRtt, hbestOffset⟩ := hs.publishes.best _ hbest
    have hordered : SlidingWindow.Ordered SyncStamps.t4 es := List.pairwise_map.1 horder
    have hle : chosen.t4 ≤ now.t4 := hordered.le_last hnow hchosen
    have herror := SyncStamps.offset_error hθ (htimed chosen hchosen) (hrtt chosen hchosen)
      (t := now.t4) (by exact_mod_cast hle)
    have hage : (now.t4 : ℝ) - chosen.t4 ≤ windowMs * 10 ^ 6 := by
      exact_mod_cast chosen_age hsamples hnow hbest
    have hspan : ρ * ((now.t4 - chosen.t4) + 2 * ((chosen.t4 : ℝ) - chosen.t1)) ≤
        ρ * (windowMs * 10 ^ 6 + 2 * (chosen.t4 - chosen.t1)) :=
      mul_le_mul_of_nonneg_left (add_le_add hage le_rfl) hθ.nonneg
    rw [hbestRtt, hbestOffset]
    show |(chosen.sample.offsetNs : ℝ) - θ now.t4| ≤ ((chosen.rtt / 2 : ℤ) : ℝ) + _ + 1
    linarith
  refine ⟨exists_chosen hsamples hnow, hbound, ?_⟩
  intro hwindow hzero
  obtain ⟨chosen, hchosen, hbest⟩ := exists_chosen hsamples hnow hwindow
  have h := hbound chosen hchosen hbest
  rwa [hzero, zero_mul, add_zero] at h

/-- An exchange with a clock that gains a tenth. -/
theorem accuracy_ping :
    let ping : SyncStamps := ⟨0, 11, 22, 30⟩
    let s := ([ping].map SyncCall.observe).foldl call (fresh 1)
    |(s.pcMinusAndroidNs : ℝ) - (30 : ℤ) / 10| ≤
      (s.bestRttNs / 2 : ℤ) + 1 / 10 * ((1 : ℤ) * 10 ^ 6 + 2 * ((30 : ℤ) - (0 : ℤ))) + 1 := by
  intro ping s
  have hdrifts : ClockOffset.Drifts (fun s : ℝ => s / 10) (1 / 10) := by
    intro s s'
    rw [← sub_div, abs_div, abs_of_pos (by norm_num : (0 : ℝ) < 10)]
    exact (by ring : |s - s'| / 10 = 1 / 10 * |s - s'|).le
  have htimed : ping.Timed fun s => s / 10 :=
    ⟨⟨0, 10, 20, 30, by norm_num, by norm_num, by norm_num⟩, by norm_num [ping],
      by norm_num [ping, ClockOffset.Exchange.t₂], by norm_num [ping, ClockOffset.Exchange.t₃],
      by norm_num [ping]⟩
  exact (@accuracy _ _ 1 [ping] ping hdrifts (by decide) (by simpa using htimed)
    (List.pairwise_singleton _ _) rfl).2.1 ping (List.mem_singleton_self _) rfl

end TimeSync

end Penflow.Client
