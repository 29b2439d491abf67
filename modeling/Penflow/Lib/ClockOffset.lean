import Mathlib.Algebra.Order.Field.Basic
import Mathlib.Tactic.Linarith
import Mathlib.Tactic.Ring

/-!
# Clock offsets

Two clocks: when the local one reads `s`, the remote one reads `s + θ s`, and `θ` drifts at most by `ρ` a
unit of time.  An exchange of a request and a response gives the offset at its midpoint, with an error of
half the round trip and the drift over the exchange.
-/

namespace ClockOffset

variable {K : Type*} [Field K] [LinearOrder K] [IsStrictOrderedRing K]

/-- The offset drifts by at most `ρ` a unit of time. -/
def Drifts (θ : K → K) (ρ : K) : Prop := ∀ s s', |θ s - θ s'| ≤ ρ * |s - s'|

theorem Drifts.nonneg {θ : K → K} {ρ : K} (h : Drifts θ ρ) : 0 ≤ ρ := by
  have hone := h 1 0
  rw [sub_zero, abs_one, mul_one] at hone
  exact (abs_nonneg _).trans hone

/-- The local times of an exchange: the request is sent and received, the response sent and received. -/
structure Exchange (K : Type*) [LE K] where
  t₁ : K
  s₂ : K
  s₃ : K
  t₄ : K
  request : t₁ ≤ s₂
  dwell : s₂ ≤ s₃
  response : s₃ ≤ t₄

namespace Exchange

variable (θ : K → K) (e : Exchange K)

/-- The remote times at which the request is received and the response sent. -/
def t₂ : K := e.s₂ + θ e.s₂

def t₃ : K := e.s₃ + θ e.s₃

/-- The round trip without the time on the remote side, as the four stamps give it. -/
def rtt : K := (e.t₄ - e.t₁) - (e.t₃ θ - e.t₂ θ)

/-- The offset at the midpoint. -/
def offset : K := e.t₂ θ - (e.t₁ + e.rtt θ / (2 : ℕ))

omit [IsStrictOrderedRing K] in
theorem offset_eq : e.offset θ = e.t₂ θ - (e.t₁ + e.rtt θ / 2) := by
  rw [offset, Nat.cast_ofNat]

variable {θ} {ρ : K} (hθ : Drifts θ ρ)

include hθ

/-- The midpoint is off by at most half the round trip, and the drift while the remote side works. -/
theorem offset_error_received :
    |e.offset θ - θ e.s₂| ≤ e.rtt θ / 2 + ρ * (e.s₃ - e.s₂) := by
  have hdrift : |θ e.s₃ - θ e.s₂| ≤ ρ * (e.s₃ - e.s₂) := by
    have h := hθ e.s₃ e.s₂
    rwa [abs_of_nonneg (sub_nonneg.2 e.dwell)] at h
  obtain ⟨hlow, hhigh⟩ := abs_le.1 hdrift
  have hrequest := e.request
  have hresponse := e.response
  have hnonneg : 0 ≤ ρ * (e.s₃ - e.s₂) := mul_nonneg hθ.nonneg (sub_nonneg.2 e.dwell)
  have hrtt : e.rtt θ = (e.s₂ - e.t₁) + (e.t₄ - e.s₃) - (θ e.s₃ - θ e.s₂) := by
    rw [rtt, t₂, t₃]
    ring
  have herror : e.offset θ - θ e.s₂ = (e.s₂ - e.t₁) - e.rtt θ / 2 := by
    rw [offset_eq, t₂]
    ring
  rw [herror, abs_le]
  constructor
  · linarith
  · linarith

/-- **The offset at a later time.**  It is off by at most half the round trip, and the drift over the time
since the response and twice the exchange. -/
theorem offset_error {t : K} (ht : e.t₄ ≤ t) :
    |e.offset θ - θ t| ≤ e.rtt θ / 2 + ρ * ((t - e.t₄) + 2 * (e.t₄ - e.t₁)) := by
  have hreceived := e.offset_error_received hθ
  have hlater : |θ e.s₂ - θ t| ≤ ρ * (t - e.s₂) := by
    have h := hθ e.s₂ t
    rwa [abs_sub_comm e.s₂ t,
      abs_of_nonneg (sub_nonneg.2 ((e.dwell.trans e.response).trans ht))] at h
  have hsum : ρ * (e.s₃ - e.s₂) + ρ * (t - e.s₂) + ρ * (e.t₄ - e.s₃) + 2 * (ρ * (e.s₂ - e.t₁)) =
      ρ * ((t - e.t₄) + 2 * (e.t₄ - e.t₁)) := by
    ring
  have hresponse : 0 ≤ ρ * (e.t₄ - e.s₃) := mul_nonneg hθ.nonneg (sub_nonneg.2 e.response)
  have hrequest : 0 ≤ ρ * (e.s₂ - e.t₁) := mul_nonneg hθ.nonneg (sub_nonneg.2 e.request)
  calc |e.offset θ - θ t| ≤ |e.offset θ - θ e.s₂| + |θ e.s₂ - θ t| := abs_sub_le _ _ _
    _ ≤ e.rtt θ / 2 + ρ * (e.s₃ - e.s₂) + ρ * (t - e.s₂) := add_le_add hreceived hlater
    _ ≤ e.rtt θ / 2 + ρ * ((t - e.t₄) + 2 * (e.t₄ - e.t₁)) := by
      rw [← hsum]
      linarith

end Exchange

end ClockOffset
