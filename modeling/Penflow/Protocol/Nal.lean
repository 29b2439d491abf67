import Penflow.Lib.AnnexB
import Mathlib.Tactic.Ring

/-!
# The NAL splitter

`splitNals` walks an Annex B byte stream and reports where each NAL begins and ends and its type.
On a tight decomposition it reports the units of the decomposition, one for one, except a start code
with nothing behind it (`reportedNals_join`).
-/

namespace Penflow

open AnnexB

/-! ### The splitter -/

/-- The first loop of `split_nals`: the offsets of each start code and of what follows it.  The
index grows in every turn, so `bytes.len()` turns are enough. -/
def nalStarts (bytes : List UInt8) : ℕ → ℕ → List (ℕ × ℕ)
  | 0, _ => []
  | fuel + 1, i =>
    if i + 3 ≤ bytes.length then
      if [0, 0, 0, 1] <+: bytes.drop i then
        (i, i + 4) :: nalStarts bytes fuel (i + 4)
      else if [0, 0, 1] <+: bytes.drop i then
        (i, i + 3) :: nalStarts bytes fuel (i + 3)
      else
        nalStarts bytes fuel (i + 1)
    else
      []

/-- Where a NAL ends, given the start codes after its own. -/
def endOff (len : ℕ) : List (ℕ × ℕ) → ℕ
  | [] => len
  | (next_off, _) :: _ => next_off

/-- The second loop of `split_nals`: a NAL ends where the next one starts; a start code at the very
end has no NAL. -/
def nalTriples (bytes : List UInt8) (nal_type_from_header_byte : UInt8 → UInt8) :
    List (ℕ × ℕ) → List (ℕ × ℕ × UInt8)
  | [] => []
  | (start_off, payload_off) :: starts =>
    let end_off := endOff bytes.length starts
    match bytes[payload_off]? with
    | none => nalTriples bytes nal_type_from_header_byte starts
    | some b =>
      (start_off, end_off, nal_type_from_header_byte b) ::
        nalTriples bytes nal_type_from_header_byte starts

def splitNals (bytes : List UInt8) (nal_type_from_header_byte : UInt8 → UInt8) :
    List (ℕ × ℕ × UInt8) :=
  nalTriples bytes nal_type_from_header_byte (nalStarts bytes bytes.length 0)

/-- `(b >> 1) & 0x3F` -/
def hevcNalType (b : UInt8) : UInt8 := (b >>> 1) &&& 0x3F

/-- `b & 0x1F` -/
def h264NalType (b : UInt8) : UInt8 := b &&& 0x1F

def splitHevcNals (bytes : List UInt8) : List (ℕ × ℕ × UInt8) := splitNals bytes hevcNalType

def splitH264Nals (bytes : List UInt8) : List (ℕ × ℕ × UInt8) := splitNals bytes h264NalType

/-- What follows the start code of a NAL. -/
def nalPayload (nal : List UInt8) : List UInt8 :=
  if [0, 0, 0, 1] <+: nal then nal.drop 4 else nal.drop 3

/-- The NALs a splitter reports, each with its type and payload. -/
def reportedNals (split : List UInt8 → List (ℕ × ℕ × UInt8)) (bytes : List UInt8) :
    List (UInt8 × List UInt8) :=
  (split bytes).map fun x => (x.2.2, nalPayload ((bytes.take x.2.1).drop x.1))

/-! ### On a decomposition -/

/-- The start codes of the units, the first at `off`. -/
def unitStarts : ℕ → List Nal → List (ℕ × ℕ)
  | _, [] => []
  | off, u :: us => (off, off + u.code.length) :: unitStarts (off + u.bytes.length) us

/-- The NALs of the units.  The type of an empty one is taken from the start code behind it. -/
def unitNals (nal_type_from_header_byte : UInt8 → UInt8) : List Nal → List (UInt8 × List UInt8)
  | [] => []
  | u :: us =>
    match (join u.payload us).head? with
    | none => unitNals nal_type_from_header_byte us
    | some b => (nal_type_from_header_byte b, u.payload) :: unitNals nal_type_from_header_byte us

/-- Where the units stand, the first at `off`; the range of a start code with nothing behind it is not
there. -/
def unitRanges (nal_type_from_header_byte : UInt8 → UInt8) : ℕ → List Nal → List (ℕ × ℕ × UInt8)
  | _, [] => []
  | off, u :: us =>
    match (join u.payload us).head? with
    | none => unitRanges nal_type_from_header_byte (off + u.bytes.length) us
    | some b => (off, off + u.bytes.length, nal_type_from_header_byte b) ::
        unitRanges nal_type_from_header_byte (off + u.bytes.length) us

theorem longCode_eq : longCode = [0, 0, 0, 1] := rfl

theorem shortCode_eq : shortCode = [0, 0, 1] := rfl

/-- Where a code of the decomposition stands, the two tests of a scanner find it. -/
theorem scan_code {β : Type} (u : Nal) (t : List UInt8) (f : ℕ → β) (z : β) :
    (if [0, 0, 0, 1] <+: u.code ++ t then f 4 else if [0, 0, 1] <+: u.code ++ t then f 3 else z) =
      f u.code.length := by
  rw [← longCode_eq, ← shortCode_eq]
  cases hlong : u.long
  · have hcode : u.code = shortCode := by simp [Nal.code, hlong]
    rw [hcode, if_neg (not_long_prefix_short t), if_pos (List.prefix_append shortCode t)]
    rfl
  · have hcode : u.code = longCode := by simp [Nal.code, hlong]
    rw [hcode, if_pos (List.prefix_append longCode t)]
    rfl

/-- Before a code they find nothing. -/
theorem scan_free {β : Type} {b : UInt8} {p : List UInt8} {us : List Nal} (h : Tight (b :: p) us)
    (x y z : β) :
    (if [0, 0, 0, 1] <+: b :: join p us then x
      else if [0, 0, 1] <+: b :: join p us then y else z) = z := by
  have hno := h.not_begins
  rw [← longCode_eq, ← shortCode_eq, if_neg fun hp => hno (.inl hp), if_neg fun hp => hno (.inr hp)]

/-- A stream of fewer than three bytes has no units. -/
theorem three_le_join_length (p : List UInt8) (u : Nal) (us : List Nal) :
    p.length + 3 ≤ (join p (u :: us)).length := by
  have := three_le_code_length u
  simp only [join_cons, List.length_append]
  omega

theorem join_head {p : List UInt8} {b : UInt8} (us : List Nal) (h : p.head? = some b) :
    (join p us).head? = some b := by
  cases p with
  | nil => cases h
  | cons c t => exact h

theorem join_head_eq_none {p : List UInt8} {us : List Nal} (h : (join p us).head? = none) :
    us = [] := by
  cases us with
  | nil => rfl
  | cons u us =>
      have := three_le_join_length p u us
      rw [List.head?_eq_none_iff.1 h] at this
      simp at this

theorem nalStarts_join (fuel : ℕ) (a p : List UInt8) (us : List Nal) (h : Tight p us)
    (hfuel : (join p us).length ≤ fuel) :
    nalStarts (a ++ join p us) fuel a.length = unitStarts (a.length + p.length) us := by
  induction fuel generalizing a p us with
  | zero =>
      cases us with
      | nil => rfl
      | cons u us =>
          have := three_le_join_length p u us
          omega
  | succ fuel ih =>
      rw [nalStarts, List.drop_left]
      cases p with
      | nil =>
          cases us with
          | nil => simp [unitStarts]
          | cons u us =>
              have hlen := three_le_join_length [] u us
              have hcode := three_le_code_length u
              have hnext := ih (a ++ u.code) u.payload us h.2 (by
                simp only [join_cons, List.length_append, List.nil_append] at hfuel
                omega)
              rw [if_pos (by rw [List.length_append]; omega), join_cons, List.nil_append]
              refine (scan_code u (join u.payload us)
                (fun k => (a.length, a.length + k) :: nalStarts (a ++ (u.code ++ join u.payload us))
                  fuel (a.length + k)) _).trans ?_
              rw [List.length_append, List.append_assoc] at hnext
              rw [hnext, unitStarts, Nal.bytes, List.length_append, List.length_nil, Nat.add_zero,
                Nat.add_assoc]
      | cons b p =>
          have hshort : (join p us).length ≤ fuel := by
            rw [join_pre_cons, List.length_cons] at hfuel
            omega
          have hnext := ih (a ++ [b]) p us h.tail hshort
          rw [join_pre_cons, scan_free h]
          by_cases hroom : a.length + 3 ≤ (a ++ b :: join p us).length
          · rw [if_pos hroom]
            rw [List.append_assoc, List.length_append, List.length_singleton] at hnext
            rw [List.length_cons, ← Nat.add_assoc, Nat.add_right_comm, ← hnext]
            rfl
          · rw [if_neg hroom]
            cases us with
            | nil => rfl
            | cons u us =>
                have := three_le_join_length p u us
                simp only [List.length_append, List.length_cons] at hroom
                omega

theorem nalPayload_bytes (u : Nal) : nalPayload u.bytes = u.payload := by
  rw [nalPayload, ← longCode_eq, Nal.bytes]
  cases hlong : u.long
  · have hcode : u.code = shortCode := by simp [Nal.code, hlong]
    rw [hcode, if_neg (not_long_prefix_short _)]
    rfl
  · have hcode : u.code = longCode := by simp [Nal.code, hlong]
    rw [hcode, if_pos (List.prefix_append ..)]
    rfl

/-- The end the second loop finds is the end of the unit. -/
theorem endOff_unitStarts (off : ℕ) (u : Nal) (us : List Nal) {len : ℕ}
    (hlen : len = off + (u.bytes ++ us.flatMap Nal.bytes).length) :
    endOff len (unitStarts (off + u.bytes.length) us) = off + u.bytes.length := by
  cases us with
  | nil => simpa [unitStarts, endOff] using hlen
  | cons v us => rfl

theorem nalTriples_units (f : UInt8 → UInt8) (bytes a : List UInt8) (us : List Nal)
    (hbytes : bytes = a ++ us.flatMap Nal.bytes) :
    nalTriples bytes f (unitStarts a.length us) = unitRanges f a.length us := by
  induction us generalizing a with
  | nil => rfl
  | cons u us ih =>
      have hnext := flatMap_next hbytes
      have hrest := ih (a ++ u.bytes) hnext
      rw [List.length_append] at hrest
      have hlen : bytes.length = a.length + (u.bytes ++ us.flatMap Nal.bytes).length := by
        rw [hnext, List.append_assoc, List.length_append]
      have hhead : bytes[a.length + u.code.length]? = (join u.payload us).head? := by
        have hsplit : bytes = (a ++ u.code) ++ join u.payload us := by
          rw [hbytes, List.flatMap_cons, Nal.bytes, join]
          simp
        rw [hsplit, ← List.length_append, List.getElem?_append_right (Nat.le_refl _), Nat.sub_self,
          List.head?_eq_getElem?]
      rw [unitStarts, nalTriples, hhead, unitRanges, endOff_unitStarts a.length u us hlen]
      cases (join u.payload us).head? with
      | none => exact hrest
      | some b =>
          simp only
          rw [hrest]

/-- The bytes of a unit where it stands. -/
theorem take_drop_unit {a : List UInt8} {u : Nal} {us : List Nal} {bytes : List UInt8}
    (hbytes : bytes = a ++ (u :: us).flatMap Nal.bytes) :
    (bytes.take (a.length + u.bytes.length)).drop a.length = u.bytes := by
  rw [flatMap_next hbytes, ← List.length_append, List.take_left, List.drop_left]

/-- What stands in the ranges. -/
theorem unitRanges_nals (f : UInt8 → UInt8) (bytes a : List UInt8) (us : List Nal)
    (hbytes : bytes = a ++ us.flatMap Nal.bytes) :
    (unitRanges f a.length us).map
      (fun x => (x.2.2, nalPayload ((bytes.take x.2.1).drop x.1))) = unitNals f us := by
  induction us generalizing a with
  | nil => rfl
  | cons u us ih =>
      have hnext := flatMap_next hbytes
      have hrest := ih (a ++ u.bytes) hnext
      rw [List.length_append] at hrest
      rw [unitRanges, unitNals]
      cases (join u.payload us).head? with
      | none => exact hrest
      | some b =>
          simp only [List.map_cons]
          rw [hrest, take_drop_unit hbytes, nalPayload_bytes]

/-- **The ranges of a tight stream.** -/
theorem splitNals_join (f : UInt8 → UInt8) {p : List UInt8} {us : List Nal} (h : Tight p us) :
    splitNals (join p us) f = unitRanges f p.length us := by
  have hstarts := nalStarts_join (join p us).length [] p us h (Nat.le_refl _)
  rw [List.nil_append, List.length_nil, Nat.zero_add] at hstarts
  rw [splitNals, hstarts]
  exact nalTriples_units f _ p us rfl

/-- **The splitter on a tight stream.**  It reports the units of the decomposition. -/
theorem reportedNals_join (f : UInt8 → UInt8) {p : List UInt8} {us : List Nal} (h : Tight p us) :
    reportedNals (splitNals · f) (join p us) = unitNals f us := by
  rw [reportedNals, splitNals_join f h]
  exact unitRanges_nals f _ p us rfl

end Penflow
