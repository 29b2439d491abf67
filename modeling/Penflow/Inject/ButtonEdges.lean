import Penflow.Inject.Dispatch
import Penflow.Lib.Run
import Mathlib.Data.List.Nodup

/-!
# Once for each edge

An edge of a button performs the actions of its binding one after the other, and the buttons are remembered
when all edges of a sample are through.  A dispatch that Windows stops on the way has performed some actions
and remembers nothing, so the next sample performs them again.  `once_per_edge` says that this is the only
way: where every dispatch is taken in full or stopped before its first action, no action is performed twice
for one press or release.
-/

namespace Penflow

open InjectM Attempts ButtonAction

/-! ### The actions of the edges -/

/-- An action of an edge: the slot, whether it went down, and which action of the binding it is. -/
structure EdgeAction where
  slot : UInt8
  pressed : Bool
  number : ℕ
  action : ButtonAction
  deriving DecidableEq, Repr

def numbered (slot : UInt8) (pressed : Bool) (as : List ButtonAction) : List EdgeAction :=
  as.zipIdx.map fun a => ⟨slot, pressed, a.2, a.1⟩

def slotEdges (slot : UInt8) (b : Binding) (pressed released : Bool) : List EdgeAction :=
  (if pressed then numbered slot true b.pressActions else []) ++
    (if released then numbered slot false b.releaseActions else [])

/-- The actions of all edges of a sample, in the order of the dispatch. -/
def edgesOf (w : World) (sample : PenSample) : List EdgeAction :=
  slots.flatMap fun slot =>
    slotEdges slot (w.inj.pen_profile.binding slot)
      (isSet (~~~w.inj.last_pen_buttons &&& sample.buttons) slot)
      (isSet (w.inj.last_pen_buttons &&& ~~~sample.buttons) slot)

theorem numbered_action (slot : UInt8) (pressed : Bool) (as : List ButtonAction) :
    (numbered slot pressed as).map EdgeAction.action = as := by
  rw [numbered, List.map_map]
  exact List.zipIdx_map_fst 0 as

theorem numbered_number (slot : UInt8) (pressed : Bool) (as : List ButtonAction) :
    (numbered slot pressed as).map EdgeAction.number = List.range' 0 as.length := by
  rw [numbered, List.map_map]
  exact List.zipIdx_map_snd 0 as

theorem slotEdges_action (slot : UInt8) (b : Binding) (pressed released : Bool) :
    (slotEdges slot b pressed released).map EdgeAction.action = slotActions b pressed released := by
  rw [slotEdges, slotActions, List.map_append]
  cases pressed with
  | true =>
      cases released with
      | true => exact congrArg₂ _ (numbered_action _ _ _) (numbered_action _ _ _)
      | false => exact congrArg (· ++ []) (numbered_action _ _ _)
  | false =>
      cases released with
      | true => exact numbered_action _ _ _
      | false => rfl

/-- They are what the dispatch does after the mouse has followed the pen. -/
theorem edgesOf_action (w : World) (sample : PenSample) : (edgesOf w sample).map EdgeAction.action =
    edgeActions w.inj.pen_profile w.inj.last_pen_buttons sample.buttons := by
  rw [edgesOf, List.map_flatMap, edgeActions]
  congr 1
  funext slot
  exact slotEdges_action _ _ _ _

theorem mem_slotEdges {slot : UInt8} {b : Binding} {pressed released : Bool} {e : EdgeAction}
    (he : e ∈ slotEdges slot b pressed released) :
    e.slot = slot ∧ (if e.pressed then pressed else released) = true := by
  rw [slotEdges, List.mem_append] at he
  rcases he with he | he
  · cases pressed with
    | true =>
        obtain ⟨a, -, rfl⟩ := List.mem_map.1 he
        exact ⟨rfl, rfl⟩
    | false => cases he
  · cases released with
    | true =>
        obtain ⟨a, -, rfl⟩ := List.mem_map.1 he
        exact ⟨rfl, rfl⟩
    | false => cases he

/-- **An edge** is a slot whose remembered state is not the one in the sample. -/
theorem mem_edgesOf {w : World} {sample : PenSample} {e : EdgeAction} (he : e ∈ edgesOf w sample) :
    isSet w.inj.last_pen_buttons e.slot = !e.pressed ∧ isSet sample.buttons e.slot = e.pressed := by
  obtain ⟨slot, hslot, he⟩ := List.mem_flatMap.1 he
  obtain ⟨rfl, hedge⟩ := mem_slotEdges he
  rw [isSet_rose hslot, isSet_fell hslot] at hedge
  cases hpressed : e.pressed with
  | true =>
      rw [hpressed, if_pos rfl, Bool.and_eq_true, Bool.not_eq_true'] at hedge
      exact hedge
  | false =>
      rw [hpressed, if_neg Bool.false_ne_true, Bool.and_eq_true, Bool.not_eq_true'] at hedge
      exact hedge

/-- No action stands there twice. -/
theorem numbered_nodup (slot : UInt8) (pressed : Bool) (as : List ButtonAction) :
    (numbered slot pressed as).Nodup := by
  apply List.Nodup.of_map EdgeAction.number
  rw [numbered_number]
  exact List.nodup_range'

theorem slotEdges_nodup (slot : UInt8) (b : Binding) (pressed released : Bool) :
    (slotEdges slot b pressed released).Nodup := by
  rw [slotEdges, List.nodup_append]
  refine ⟨?_, ?_, ?_⟩
  · split
    · exact numbered_nodup _ _ _
    · exact List.nodup_nil
  · split
    · exact numbered_nodup _ _ _
    · exact List.nodup_nil
  · rintro e he _ he' rfl
    split at he
    · split at he'
      · obtain ⟨a, -, rfl⟩ := List.mem_map.1 he
        obtain ⟨a', -, heq⟩ := List.mem_map.1 he'
        cases congrArg EdgeAction.pressed heq
      · cases he'
    · cases he

theorem edgesOf_nodup (w : World) (sample : PenSample) : (edgesOf w sample).Nodup := by
  rw [edgesOf, List.nodup_flatMap]
  refine ⟨fun slot _ => slotEdges_nodup _ _ _ _, ?_⟩
  have hslots : slots.Nodup := by decide
  apply hslots.imp
  intro slot slot' hne e he he'
  exact hne ((mem_slotEdges he).1.symm.trans (mem_slotEdges he').1)

/-! ### What a dispatch performs -/

variable [Windows]

/-- The actions of edges that the dispatch of a sample performs. -/
def performedEdges (w : World) (sample : PenSample) : List EdgeAction :=
  (edgesOf w sample).take
    ((perform World.act w (dispatchActions w sample)).1 - (syncActions w sample).length)

theorem mem_performedEdges {w : World} {sample : PenSample} {e : EdgeAction}
    (he : e ∈ performedEdges w sample) : e ∈ edgesOf w sample := List.mem_of_mem_take he

/-- The dispatch is taken in full. -/
def Dispatched (w : World) (sample : PenSample) : Prop :=
  Completes World.act w (dispatchActions w sample)

theorem dispatched_iff {w : World} {sample : PenSample} : Dispatched w sample ↔
    Windows.acceptsAll w.log.length ((dispatchInputs w sample).map .sendInput) = true := by
  have h := perform_accepted (dispatchActions w sample) w
  rw [inputs_dispatchActions] at h
  split at h
  case isTrue hall => exact iff_of_true h.1 hall
  case isFalse hall => exact iff_of_false h.1 hall

/-! ### Clean dispatches -/

/-- Windows rejects an event before anything of an edge is done: at most the mouse has moved. -/
def RejectedAtOnce (w : World) (sample : PenSample) : Prop :=
  ∃ before i after, dispatchActions w sample = before ++ .send i :: after ∧
    before.length ≤ (syncActions w sample).length ∧
    Windows.acceptsAll w.log.length ((inputs before).map .sendInput) = true ∧
    Windows.accepts (w.log.length + (inputs before).length) (.sendInput i) = false

/-- The dispatch of a sample is taken in full, or rejected at once. -/
def Clean (w : World) : Call → Prop
  | .injectPen sample =>
      Windows.acceptsAll w.log.length ((dispatchInputs w sample).map .sendInput) = true ∨
        RejectedAtOnce w sample
  | _ => True

/-- The world behind actions that are all taken. -/
theorem completes_of_acceptsAll {w : World} {as : List ButtonAction}
    (h : Windows.acceptsAll w.log.length ((inputs as).map .sendInput) = true) :
    Completes World.act w as ∧
      (perform World.act w as).2.log.length = w.log.length + (inputs as).length := by
  have haccepted := perform_accepted as w
  rw [if_pos h] at haccepted
  rw [haccepted.2, World.sent_length, List.length_map]
  exact ⟨haccepted.1, rfl⟩

theorem performedEdges_eq_nil {w : World} {sample : PenSample}
    (h : (perform World.act w (dispatchActions w sample)).1 ≤ (syncActions w sample).length) :
    performedEdges w sample = [] := by
  rw [performedEdges, Nat.sub_eq_zero_of_le h, List.take_zero]

/-- What it is to be rejected at once. -/
theorem rejectedAtOnce_iff {w : World} {sample : PenSample} : RejectedAtOnce w sample ↔
    ¬ Dispatched w sample ∧ performedEdges w sample = [] := by
  constructor
  · rintro ⟨before, i, after, hactions, hle, hall, hrejected⟩
    obtain ⟨hbefore, hlen⟩ := completes_of_acceptsAll hall
    have hfails : (World.act (perform World.act w before).2 (.send i)).2 = false := by
      rw [World.act, hlen]
      exact hrejected
    have hcount : (perform World.act w (before ++ .send i :: after)).1 = before.length :=
      perform_fst_of_fails hbefore hfails
    rw [← hactions] at hcount
    constructor
    · rw [Dispatched, Completes, hcount, hactions, List.length_append, List.length_cons]
      omega
    · apply performedEdges_eq_nil
      rw [hcount]
      exact hle
  · rintro ⟨hnot, hnil⟩
    obtain ⟨before, a, after, hactions, hbefore, hfails⟩ := exists_of_not_completes hnot
    have hcount : (perform World.act w (before ++ a :: after)).1 = before.length :=
      perform_fst_of_fails hbefore hfails
    rw [← hactions] at hcount
    have hle : before.length ≤ (syncActions w sample).length := by
      rw [performedEdges, hcount, List.take_eq_nil_iff] at hnil
      rcases hnil with hzero | hedges
      · omega
      · have hlen := congrArg List.length hactions
        rw [dispatchActions, ← edgesOf_action, hedges, List.map_nil, List.append_nil,
          List.length_append, List.length_cons] at hlen
        omega
    have haccepted := perform_accepted before w
    split at haccepted
    case isFalse hall => exact absurd hbefore haccepted.1
    case isTrue hall =>
      cases a with
      | toggle => cases hfails
      | send i =>
          refine ⟨before, i, after, hactions, hle, hall, ?_⟩
          rw [World.act, (completes_of_acceptsAll hall).2] at hfails
          exact hfails

/-- **A clean dispatch** performs all actions of its edges, or none of them. -/
theorem clean_injectPen_iff {w : World} {sample : PenSample} :
    Clean w (.injectPen sample) ↔ Dispatched w sample ∨ performedEdges w sample = [] := by
  rw [Clean, ← dispatched_iff, rejectedAtOnce_iff]
  constructor
  · rintro (h | ⟨-, h⟩)
    · exact .inl h
    · exact .inr h
  · rintro (h | h)
    · exact .inl h
    · by_cases hdispatched : Dispatched w sample
      · exact .inl hdispatched
      · exact .inr ⟨hdispatched, h⟩

/-! ### The buttons that are remembered -/

variable [BuildProfile]

/-- A sample whose dispatch is taken in full is remembered, whatever becomes of the pen frame behind it. -/
theorem last_pen_buttons_of_dispatched {w : World} {sample : PenSample} (h : Dispatched w sample) :
    (w.step (.injectPen sample)).inj.last_pen_buttons = sample.buttons := by
  have hdispatch := dispatchPenButtons_exec w sample
  rw [if_pos (dispatched_iff.1 h)] at hdispatch
  have hwrote := writeSample_wrote sample
    (sample.eraser || (w.dispatched sample).inj.pen_eraser_sticky) (w.dispatched sample)
  obtain ⟨-, vmulti, hinj⟩ := hwrote
  rw [World.step, Call.method, injectPen, exec_bind_of_ok hdispatch, exec_bind_of_ok (exec_self _),
    exec_bind]
  generalize exec (writeSample sample _) (w.dispatched sample) = x at hinj ⊢
  obtain ⟨e | u, w'⟩ := x
  · show w'.inj.last_pen_buttons = _
    rw [hinj]
    rfl
  · show w'.inj.last_pen_buttons = _
    rw [hinj]
    rfl

/-- One whose dispatch is stopped leaves nothing but the sticky eraser behind. -/
theorem inj_of_not_dispatched {w : World} {sample : PenSample} (h : ¬ Dispatched w sample) :
    ∃ sticky, (w.step (.injectPen sample)).inj = { w.inj with pen_eraser_sticky := sticky } := by
  have hdispatch := dispatchPenButtons_exec w sample
  rw [if_neg fun hall => h (dispatched_iff.2 hall)] at hdispatch
  obtain ⟨w', hexec, -, sticky, hinj⟩ := hdispatch
  rw [World.step, Call.method, injectPen, exec_bind_of_error hexec]
  exact ⟨sticky, hinj⟩

theorem last_pen_buttons_injectTouch (w : World) (snapshot : List TouchPoint) :
    (w.step (.injectTouch snapshot)).inj.last_pen_buttons = w.inj.last_pen_buttons := by
  obtain ⟨-, pos, hinj⟩ := injectTouch_touched snapshot w
  rw [World.step, Call.method, hinj]

/-- **Behind a clean dispatch** an action of an edge is performed only where the slot is remembered as the
edge left it. -/
theorem isSet_of_performed {w : World} {sample : PenSample} (hclean : Clean w (.injectPen sample))
    {e : EdgeAction} (he : e ∈ performedEdges w sample) :
    isSet (w.step (.injectPen sample)).inj.last_pen_buttons e.slot = e.pressed := by
  rcases clean_injectPen_iff.1 hclean with hdispatched | hnil
  · rw [last_pen_buttons_of_dispatched hdispatched]
    exact (mem_edgesOf (mem_performedEdges he)).2
  · rw [hnil] at he
    cases he

/-! ### The law -/

/-- The actions of edges that a call performs. -/
def Call.performed (w : World) : Call → List EdgeAction
  | .injectPen sample => performedEdges w sample
  | _ => []

/-- No action of an edge is performed twice: not in one call, and not in two between which the slot has kept
its state. -/
structure OncePerEdge (w : World) (calls : List Call) : Prop where
  once : ∀ pre a post, calls = pre ++ a :: post → (a.performed (pre.foldl World.step w)).Nodup
  again : ∀ pre a mid b post, calls = pre ++ a :: (mid ++ b :: post) →
    ∀ e ∈ a.performed (pre.foldl World.step w), e ∈ b.performed ((pre ++ a :: mid).foldl World.step w) →
      ∃ sample, .injectPen sample ∈ mid ∧ isSet sample.buttons e.slot ≠ e.pressed

/-! ### Runs -/

/-- While a slot is as it is remembered, it stays so. -/
theorem isSet_step {w : World} {call : Call} {slot : UInt8} {v : Bool}
    (hslot : isSet w.inj.last_pen_buttons slot = v) (hswap : ∀ profile, call ≠ .setPenProfile profile)
    (hcall : ∀ sample, call = .injectPen sample → isSet sample.buttons slot = v) :
    isSet (w.step call).inj.last_pen_buttons slot = v := by
  cases call with
  | setPenProfile profile => exact absurd rfl (hswap profile)
  | injectTouch snapshot =>
      rw [last_pen_buttons_injectTouch]
      exact hslot
  | injectPen sample =>
      by_cases h : Dispatched w sample
      · rw [last_pen_buttons_of_dispatched h]
        exact hcall sample rfl
      · obtain ⟨sticky, hinj⟩ := inj_of_not_dispatched h
        rw [hinj]
        exact hslot

theorem isSet_run {w : World} {calls : List Call} {slot : UInt8} {v : Bool}
    (hslot : isSet w.inj.last_pen_buttons slot = v) (hswap : ∀ profile, .setPenProfile profile ∉ calls)
    (hcalls : ∀ sample, .injectPen sample ∈ calls → isSet sample.buttons slot = v) :
    isSet (calls.foldl World.step w).inj.last_pen_buttons slot = v := by
  induction calls generalizing w with
  | nil => exact hslot
  | cons call calls ih =>
      rw [List.foldl_cons]
      apply ih
      · apply isSet_step hslot
        · intro profile heq
          exact hswap profile (heq ▸ List.mem_cons_self)
        · intro sample heq
          exact hcalls sample (heq ▸ List.mem_cons_self)
      · intro profile h
        exact hswap profile (List.mem_cons_of_mem call h)
      · intro sample h
        exact hcalls sample (List.mem_cons_of_mem call h)

/-- **Once for each edge.**  In a run with one profile whose dispatches are all clean no action of an edge is
performed twice. -/
theorem once_per_edge {w : World} {calls : List Call}
    (hswap : ∀ profile, .setPenProfile profile ∉ calls) (hclean : Run.Steps World.step Clean w calls) :
    OncePerEdge w calls := by
  constructor
  · intro pre a post _
    cases a with
    | injectPen sample => exact (edgesOf_nodup _ sample).sublist (List.take_sublist _ _)
    | injectTouch snapshot => exact List.nodup_nil
    | setPenProfile profile => exact List.nodup_nil
  · intro pre a mid b post hsplit e he he'
    have hclean' := Run.steps_iff.1 hclean pre a _ hsplit
    cases a with
    | injectTouch snapshot => cases he
    | setPenProfile profile => cases he
    | injectPen sample =>
        cases b with
        | injectTouch snapshot => cases he'
        | setPenProfile profile => cases he'
        | injectPen sample' =>
            by_contra hkept
            push Not at hkept
            have hset := isSet_of_performed hclean' he
            have hmid : ∀ profile, .setPenProfile profile ∉ mid := by
              intro profile hmem
              apply hswap profile
              rw [hsplit]
              simp [hmem]
            have hrun := isSet_run hset hmid hkept
            rw [List.foldl_append, List.foldl_cons] at he'
            -- at the second sample the slot is no edge any more
            have hedge := (mem_edgesOf (mem_performedEdges he')).1
            rw [hrun] at hedge
            simp at hedge

omit [BuildProfile] in
/-- Windows when it rejects its first call and accepts all later ones. -/
abbrev Windows.rejectsFirst : Windows :=
  { Windows.acceptsEvery with accepts := fun n _ => Nat.blt 0 n }

omit [Windows] [BuildProfile] in
/-- The first key of a held button is rejected, and sent with the next sample. -/
theorem once_per_edge_retried :
    letI := Windows.rejectsFirst
    letI : BuildProfile := ⟨true⟩
    OncePerEdge ((World.new false).step (.setPenProfile .default))
      [.injectPen (.hover false 1), .injectPen (.hover false 1)] := by
  let _ := Windows.rejectsFirst
  let _ : BuildProfile := ⟨true⟩
  apply once_per_edge
  · intro profile h
    simp at h
  · refine ⟨clean_injectPen_iff.2 (.inr ?_), clean_injectPen_iff.2 (.inl ?_), trivial⟩
    · decide +kernel
    · show Completes _ _ _
      decide +kernel

omit [Windows] [BuildProfile] in
theorem head_mem_take {α : Type} {x : α} {xs : List α} {n : ℕ} (h : (x :: xs).take n ≠ []) :
    x ∈ (x :: xs).take n := by
  cases n with
  | zero => exact absurd rfl h
  | succ n => exact List.mem_cons_self

/-- **Where a dispatch is stopped on the way, a repeat does repeat.**  Another sample with the same buttons
performs the first action of the edges again, if it gets as far as performing any. -/
theorem not_oncePerEdge_of_stopped {w : World} {sample sample' : PenSample}
    (hstopped : ¬ Dispatched w sample) (hsome : performedEdges w sample ≠ [])
    (hsame : sample'.buttons = sample.buttons)
    (hagain : performedEdges (w.step (.injectPen sample)) sample' ≠ []) :
    ¬ OncePerEdge w [.injectPen sample, .injectPen sample'] := by
  intro honce
  obtain ⟨sticky, hinj⟩ := inj_of_not_dispatched hstopped
  have hedges : edgesOf (w.step (.injectPen sample)) sample' = edgesOf w sample := by
    simp only [edgesOf, hinj, hsame]
  -- both dispatches perform a front of the same list
  have hhead : ∃ e, e ∈ performedEdges w sample ∧ e ∈ performedEdges (w.step (.injectPen sample)) sample' := by
    rw [performedEdges] at hsome hagain ⊢
    rw [performedEdges]
    rw [hedges] at hagain ⊢
    cases hlist : edgesOf w sample with
    | nil =>
        rw [hlist] at hsome
        exact absurd List.take_nil hsome
    | cons e es =>
        rw [hlist] at hsome hagain
        exact ⟨e, head_mem_take hsome, head_mem_take hagain⟩
  obtain ⟨e, he, he'⟩ := hhead
  obtain ⟨s, hs, -⟩ := honce.again [] (.injectPen sample) [] (.injectPen sample') [] rfl e he he'
  cases hs

omit [Windows] [BuildProfile] in
/-- The sticky eraser turns over twice for one press: a second button goes down with it, and its key is
rejected. -/
theorem not_oncePerEdge_eraser :
    letI := Windows.rejectsFirst
    letI : BuildProfile := ⟨true⟩
    ¬ OncePerEdge ((World.new false).step (.setPenProfile ⟨.eraserToggle, .keyTap vkE, .none⟩))
      [.injectPen (.hover false 3), .injectPen (.hover false 3)] := by
  let _ := Windows.rejectsFirst
  let _ : BuildProfile := ⟨true⟩
  apply not_oncePerEdge_of_stopped
  · show ¬ Completes _ _ _
    decide +kernel
  · decide +kernel
  · rfl
  · decide +kernel

end Penflow
