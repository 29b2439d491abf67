import Penflow.Client.MotionEvent

/-!
# The touch capture

`TouchInputCapture.consume` makes of an event with a finger at index 0 the snapshot of the fingers that are
on the panel behind it; the fingers in the bars around the video are not in it.
-/

namespace Penflow.Client.TouchInputCapture

variable {F : Type} [PanelFloat F]

structure TouchContact (F : Type) where
  pointerId : Int32
  xNorm : F
  yNorm : F
  pressure : F

structure TouchSnapshot (F : Type) where
  tsNs : Int64
  contacts : List (TouchContact F)

def TouchSnapshot.ids (s : TouchSnapshot F) : List Int32 := s.contacts.map TouchContact.pointerId

def contact (rect : Rect) (p : Pointer F) : TouchContact F where
  pointerId := p.id
  xNorm := coerceUnit ((p.x - rect.rectL) / rect.rectW)
  yNorm := coerceUnit ((p.y - rect.rectT) / rect.rectH)
  pressure := coerceUnit p.pressure

/-- The index of the pointer that goes up. -/
def liftedIndex (ev : MotionEvent F) : Option ℕ :=
  match ev.action with
  | .pointerUp | .up => some ev.actionIndex
  | _ => none

/-- The pointers of a snapshot. -/
def listed (rect : Rect) (ev : MotionEvent F) : List (Pointer F × ℕ) :=
  ev.pointers.zipIdx.filter fun (p, i) =>
    some i ≠ liftedIndex ev && p.tool = .finger && !rect.inBar p.x p.y

def contacts (rect : Rect) (ev : MotionEvent F) : List (TouchContact F) :=
  match ev.action with
  | .cancel => []
  | _ => (listed rect ev).map fun (p, _) => contact rect p

/-- Pointer 0 is a finger. -/
def firstIsFinger (ev : MotionEvent F) : Bool :=
  match ev.pointers with
  | [] => false
  | p :: _ => p.tool = .finger

/-- The snapshot of an event that is consumed. -/
def consume (rect : Rect) (ev : MotionEvent F) : Option (TouchSnapshot F) :=
  if firstIsFinger ev then some ⟨ev.eventTime * 1000000, contacts rect ev⟩ else none

/-- **A snapshot lists pointers that touch the panel.** -/
theorem mem_touchingAfter_of_consume {rect : Rect} {ev : MotionEvent F} {t : List Int32}
    {snap : TouchSnapshot F} (hnodup : ev.ids.Nodup) (hlegal : ev.LegalAction t)
    (htouch : ev.action.isTouch = true) (h : consume rect ev = some snap) :
    ∀ id ∈ snap.ids, id ∈ ev.touchingAfter t := by
  intro id hid
  rw [consume] at h
  split at h
  · cases h
    obtain ⟨_, hcontact, rfl⟩ := List.mem_map.1 hid
    have hcancel : ev.action ≠ .cancel := by
      intro hact
      simp [contacts, hact] at hcontact
    have hlist : contacts rect ev = (listed rect ev).map fun x => contact rect x.1 := by
      unfold contacts
      split
      · exact absurd ‹_› hcancel
      · rfl
    rw [hlist] at hcontact
    obtain ⟨⟨p, i⟩, hp, rfl⟩ := List.mem_map.1 hcontact
    obtain ⟨hmem, hkept⟩ := List.mem_filter.1 hp
    have hi : ev.ids[i]? = some p.id := by
      rw [MotionEvent.ids, List.getElem?_map, List.mem_zipIdx_iff_getElem?.1 hmem]
      rfl
    refine MotionEvent.mem_touchingAfter hnodup hlegal htouch hcancel hi fun hup hsame => ?_
    have hlifted : liftedIndex ev = some i := by
      rw [hsame]
      rcases hup with hup | hup <;> simp [liftedIndex, hup]
    simp [hlifted] at hkept
  · cases h

end Penflow.Client.TouchInputCapture
