import Penflow.Core.Outcome
import Penflow.Lib.Raster
import Mathlib.Data.Nat.Bitwise

/-!
# Decoding the shape of the pointer

`decode_shape` makes one BGRA picture of the three layouts in which Windows hands out the pointer: colour
with padded rows, masked colour, and two stacked one-bit masks.  Width, height and pitch come with the
buffer and need not fit it or one another.  A picture that is returned always has the size it says and the
pixels of the layout (`CursorShape.Exact`); `decodeShape_iff` says on which buffers there is also no panic.
-/

namespace Penflow

open Raster

/-! ### Pixels -/

/-- The four bytes of a pixel. -/
structure Bgra where
  b : UInt8
  g : UInt8
  r : UInt8
  a : UInt8
  deriving DecidableEq, Repr

namespace Bgra

def bytes (p : Bgra) : List UInt8 := [p.b, p.g, p.r, p.a]

/-- The bytes of a list of pixels. -/
def flat (ps : List Bgra) : List UInt8 := ps.flatMap bytes

/-- The pixel at a place of a buffer, where the buffer has its four bytes. -/
def read (buf : List UInt8) (off : ℕ) : Option Bgra := do
  let b ← buf[off]?
  let g ← buf[off + 1]?
  let r ← buf[off + 2]?
  let a ← buf[off + 3]?
  pure ⟨b, g, r, a⟩

/-- `buf.chunks_exact(4)` -/
def chunks : List UInt8 → List Bgra
  | b :: g :: r :: a :: rest => ⟨b, g, r, a⟩ :: chunks rest
  | _ => []

theorem bytes_length (p : Bgra) : p.bytes.length = 4 := rfl

theorem flat_cons (p : Bgra) (ps : List Bgra) : flat (p :: ps) = p.bytes ++ flat ps :=
  List.flatMap_cons

theorem flat_append (ps qs : List Bgra) : flat (ps ++ qs) = flat ps ++ flat qs :=
  List.flatMap_append

theorem flat_singleton (p : Bgra) : flat [p] = p.bytes := List.flatMap_singleton bytes p

theorem flat_length (ps : List Bgra) : (flat ps).length = ps.length * 4 := by
  induction ps with
  | nil => rfl
  | cons p ps ih =>
      rw [flat_cons, List.length_append, ih, bytes_length, List.length_cons]
      omega

theorem read_append_right (xs ys : List UInt8) (off : ℕ) :
    read (xs ++ ys) (xs.length + off) = read ys off := by
  simp only [read, Nat.add_assoc, List.getElem?_append_right (Nat.le_add_right ..),
    Nat.add_sub_cancel_left]

theorem read_flat (ps : List Bgra) (i : ℕ) : read (flat ps) (i * 4) = ps[i]? := by
  induction ps generalizing i with
  | nil => rfl
  | cons p ps ih =>
      rw [flat_cons]
      cases i with
      | zero => rfl
      | succ i =>
          rw [show (i + 1) * 4 = p.bytes.length + i * 4 by rw [bytes_length]; omega,
            read_append_right, ih, List.getElem?_cons_succ]

/-- A buffer of whole pixels is made of its chunks. -/
theorem flat_chunks {buf : List UInt8} {n : ℕ} (hlen : buf.length = n * 4) :
    (chunks buf).length = n ∧ flat (chunks buf) = buf := by
  induction n generalizing buf with
  | zero =>
      obtain rfl := List.length_eq_zero_iff.1 (hlen.trans (Nat.zero_mul 4))
      exact ⟨rfl, rfl⟩
  | succ n ih =>
      rcases buf with _ | ⟨b, _ | ⟨g, _ | ⟨r, _ | ⟨a, rest⟩⟩⟩⟩
      · simp at hlen
      · simp at hlen
        omega
      · simp at hlen
        omega
      · simp at hlen
        omega
      · have htail : rest.length = n * 4 := by
          simp only [List.length_cons] at hlen
          omega
        obtain ⟨hn, hrest⟩ := ih htail
        rw [chunks, flat_cons, hrest, List.length_cons, hn]
        exact ⟨rfl, rfl⟩

theorem chunks_getElem? {buf : List UInt8} {n : ℕ} (hlen : buf.length = n * 4) (i : ℕ) :
    (chunks buf)[i]? = read buf (i * 4) := by
  rw [← read_flat, (flat_chunks hlen).2]

end Bgra

/-! ### The decoder -/

/-- `DXGI_OUTDUPL_POINTER_SHAPE_TYPE_*` -/
inductive ShapeKind where
  | monochrome
  | color
  | maskedColor
  deriving DecidableEq, Repr

def ShapeKind.fromRaw (t : UInt32) : Option ShapeKind :=
  if t = 1 then some .monochrome
  else if t = 2 then some .color
  else if t = 4 then some .maskedColor
  else none

structure CursorShape where
  kind : ShapeKind
  width : UInt32
  height : UInt32
  hot_x : ℤ
  hot_y : ℤ
  pixels : List UInt8
  deriving DecidableEq, Repr

/-- `E_INVALIDARG`; the two sizes are not reported. -/
def shortBufferErr (_available _need : ℕ) : EngineError := .win32

/-- A chunk of a masked row: opaque where its mask byte is 0, and the exclusive or with the screen is drawn
transparent. -/
def maskedPixel (chunk : Bgra) : Bgra :=
  if chunk.a = 0 then { chunk with a := 0xFF } else ⟨0, 0, 0, 0⟩

/-- What the two bits of a monochrome pixel show. -/
def monochromePixel (and_bit xor_bit : Bool) : Bgra :=
  match and_bit, xor_bit with
  | false, false => ⟨0, 0, 0, 0xFF⟩
  | false, true => ⟨0xFF, 0xFF, 0xFF, 0xFF⟩
  | true, false => ⟨0, 0, 0, 0⟩
  | true, true => ⟨0, 0, 0, 0⟩

section Decoder

variable [BuildProfile]

/-- Where the row at `off` ends, if the buffer holds it. -/
def rowEnd (raw : ByteSlice) (off row_bytes : ℕ) : Outcome ℕ :=
  match (checkedAddUsize off row_bytes).filter (· ≤ raw.bytes.length) with
  | some stop => .ok stop
  | none => do
    let need ← addUsize off row_bytes
    .error (.err (shortBufferErr raw.bytes.length need))

/-- One turn of the loop over the rows: row `y` is cut out of the buffer and pushed onto the pixels. -/
def decodeRow (push : List UInt8 → List UInt8 → Outcome (List UInt8)) (row_bytes pitch : ℕ)
    (raw : ByteSlice) (pixels : List UInt8) (y : ℕ) : Outcome (List UInt8) := do
  let off ← mulUsize y pitch
  let stop ← rowEnd raw off row_bytes
  push pixels (← slice raw.bytes off stop)

/-- The two layouts with four bytes a pixel: they differ in what a row pushes. -/
def decodeRows (kind : ShapeKind) (push : List UInt8 → List UInt8 → Outcome (List UInt8))
    (width height pitch : UInt32) (hot_x hot_y : ℤ) (raw : ByteSlice) : Outcome CursorShape := do
  let row_bytes ← mulUsize width.toNat 4
  let capacity ← mulUsize row_bytes height.toNat
  let pixels ← withCapacity capacity
  let pixels ← (List.range height.toNat).foldlM (decodeRow push row_bytes pitch.toNat raw) pixels
  return { kind, width, height, hot_x, hot_y, pixels }

def decodeColor (width height pitch : UInt32) (hot_x hot_y : ℤ) (raw : ByteSlice) :
    Outcome CursorShape :=
  decodeRows .color extendFromSlice width height pitch hot_x hot_y raw

/-- The inner loop of `decode_masked_color`. -/
def pushMasked (pixels row : List UInt8) : Outcome (List UInt8) :=
  (Bgra.chunks row).foldlM (fun pixels chunk => extendFromSlice pixels (maskedPixel chunk).bytes) pixels

def decodeMaskedColor (width height pitch : UInt32) (hot_x hot_y : ℤ) (raw : ByteSlice) :
    Outcome CursorShape :=
  decodeRows .maskedColor pushMasked width height pitch hot_x hot_y raw

/-- The body of the inner loop of `decode_monochrome`. -/
def monochromeAt (pitch xor_off : ℕ) (raw : ByteSlice) (y : ℕ) (pixels : List UInt8) (x : ℕ) :
    Outcome (List UInt8) := do
  let byte_idx := x / 8
  let bit_idx := 7 - x % 8
  let mask : UInt8 := 1 <<< UInt8.ofNat bit_idx
  let and_row ← mulUsize y pitch
  let and_idx ← addUsize and_row byte_idx
  let and_byte ← index raw.bytes and_idx
  let and_bit := and_byte &&& mask != 0
  let xor_row ← mulUsize y pitch
  let xor_start ← addUsize xor_off xor_row
  let xor_idx ← addUsize xor_start byte_idx
  let xor_byte ← index raw.bytes xor_idx
  let xor_bit := xor_byte &&& mask != 0
  extendFromSlice pixels (monochromePixel and_bit xor_bit).bytes

/-- The loops of `decode_monochrome`. -/
def monochromePixels (width height pitch xor_off : ℕ) (raw : ByteSlice) (pixels : List UInt8) :
    Outcome (List UInt8) :=
  (List.range height).foldlM
    (fun pixels y => (List.range width).foldlM (monochromeAt pitch xor_off raw y) pixels) pixels

def decodeMonochrome (width height_raw pitch : UInt32) (hot_x hot_y : ℤ) (raw : ByteSlice) :
    Outcome CursorShape :=
  if height_raw % 2 ≠ 0 then .error (.err (shortBufferErr 0 0))
  else do
    let height := height_raw / 2
    let xor_off ← mulUsize height.toNat pitch.toNat
    let need ← mulUsize xor_off 2
    if raw.bytes.length < need then .error (.err (shortBufferErr raw.bytes.length need))
    else do
      let area ← mulUsize width.toNat height.toNat
      let capacity ← mulUsize area 4
      let pixels ← withCapacity capacity
      let pixels ← monochromePixels width.toNat height.toNat pitch.toNat xor_off raw pixels
      return { kind := .monochrome, width, height, hot_x, hot_y, pixels }

def decodeShape (kind_raw width height_raw pitch : UInt32) (hot_x hot_y : ℤ) (raw : ByteSlice) :
    Outcome CursorShape :=
  match ShapeKind.fromRaw kind_raw with
  | none => .error (.err .win32)
  | some kind =>
    if width = 0 ∨ height_raw = 0 then .error (.err .win32)
    else
      match kind with
      | .color => decodeColor width height_raw pitch hot_x hot_y raw
      | .maskedColor => decodeMaskedColor width height_raw pitch hot_x hot_y raw
      | .monochrome => decodeMonochrome width height_raw pitch hot_x hot_y raw

end Decoder

/-! ### What the layouts mean -/

/-- The pixel in column `x` of row `y` of a picture of `height` rows, as the layout of its kind has it. -/
def layoutPixel (kind : ShapeKind) (raw : List UInt8) (pitch height x y : ℕ) : Option Bgra :=
  match kind with
  | .color => Bgra.read raw (y * pitch + x * 4)
  | .maskedColor => (Bgra.read raw (y * pitch + x * 4)).map fun p =>
      if p.a = 0 then ⟨p.b, p.g, p.r, 0xFF⟩ else ⟨0, 0, 0, 0⟩
  | .monochrome => do
      let and_byte ← raw[y * pitch + x / 8]?
      let xor_byte ← raw[height * pitch + y * pitch + x / 8]?
      pure (monochromePixel (and_byte.toNat.testBit (7 - x % 8)) (xor_byte.toNat.testBit (7 - x % 8)))

/-- The shape is the one in the buffer: it has the size and the hot spot that came with it, four bytes a
pixel, and every pixel is the one of its layout. -/
structure CursorShape.Exact (kind_raw width height_raw pitch : UInt32) (hot_x hot_y : ℤ)
    (raw : ByteSlice) (shape : CursorShape) : Prop where
  kind : ShapeKind.fromRaw kind_raw = some shape.kind
  width : shape.width = width
  height : shape.height = if shape.kind = .monochrome then height_raw / 2 else height_raw
  hot : shape.hot_x = hot_x ∧ shape.hot_y = hot_y
  length : shape.pixels.length = shape.width.toNat * shape.height.toNat * 4
  pixel : ∀ x < shape.width.toNat, ∀ y < shape.height.toNat, ∃ p,
    Bgra.read shape.pixels ((y * shape.width.toNat + x) * 4) = some p ∧
      layoutPixel shape.kind raw.bytes pitch.toNat shape.height.toNat x y = some p

/-- The bytes of the first `n` pixels of a picture. -/
def DrawnTo (w : ℕ) (f : ℕ → ℕ → Option Bgra) (n : ℕ) (pixels : List UInt8) : Prop :=
  ∃ ps, pixels = Bgra.flat ps ∧ Filled w f n ps

theorem DrawnTo.nil {w : ℕ} {f : ℕ → ℕ → Option Bgra} : DrawnTo w f (0 * w) [] := by
  rw [Nat.zero_mul]
  exact ⟨[], rfl, .nil⟩

theorem DrawnTo.length {w n : ℕ} {f : ℕ → ℕ → Option Bgra} {pixels : List UInt8}
    (h : DrawnTo w f n pixels) : pixels.length = n * 4 := by
  obtain ⟨ps, rfl, hps⟩ := h
  rw [Bgra.flat_length, hps.length]

/-- The bytes of a complete picture. -/
theorem DrawnTo.exists_pixel {w h x y : ℕ} {f : ℕ → ℕ → Option Bgra} {pixels : List UInt8}
    (hdrawn : DrawnTo w f (h * w) pixels) (hx : x < w) (hy : y < h) :
    ∃ p, Bgra.read pixels ((y * w + x) * 4) = some p ∧ f x y = some p := by
  obtain ⟨ps, rfl, hps⟩ := hdrawn
  rw [Bgra.read_flat]
  exact hps.exists_pixel hx hy

/-- A complete picture of a layout is the one in the buffer. -/
theorem exact_of_drawn {kind : ShapeKind} {kind_raw width height height_raw pitch : UInt32}
    {hot_x hot_y : ℤ} {raw : ByteSlice} {pixels : List UInt8}
    (hkind : ShapeKind.fromRaw kind_raw = some kind)
    (hheight : height = if kind = .monochrome then height_raw / 2 else height_raw)
    (hdrawn : DrawnTo width.toNat (layoutPixel kind raw.bytes pitch.toNat height.toNat)
      (height.toNat * width.toNat) pixels) :
    CursorShape.Exact kind_raw width height_raw pitch hot_x hot_y raw
      { kind, width, height, hot_x, hot_y, pixels } := by
  constructor
  · exact hkind
  · rfl
  · exact hheight
  · exact ⟨rfl, rfl⟩
  · show pixels.length = width.toNat * height.toNat * 4
    rw [hdrawn.length, Nat.mul_comm height.toNat]
  · intro x hx y hy
    exact hdrawn.exists_pixel hx hy

/-! ### The memory of a picture -/

section Allocate

variable [BuildProfile] {α : Type} {a b : ℕ} {f : List UInt8 → Outcome α}

/-- A picture gets its memory, or the call panics because it is too large. -/
theorem allocate_ends {P : Prop} {Q : α → Prop} (hP : isizeMax < a * b → P) (hf : (f []).Ends P Q) :
    (mulUsize a b >>= fun capacity => withCapacity capacity >>= f).Ends P Q := by
  have hproduct : (mulUsize a b).Ends P fun capacity => isizeMax < capacity → P := by
    apply mulUsize_ends
    · exact fun _ => hP
    · intro hge
      have hlarge : P := hP (by rw [isizeMax]; omega)
      exact ⟨hlarge, fun _ => hlarge⟩
  refine hproduct.bind fun capacity hcapacity => (withCapacity_ends hcapacity).bind ?_
  rintro pixels rfl
  exact hf

/-- A checked build does panic there. -/
theorem allocate_of_large (hchecked : BuildProfile.overflowChecks = true) (h : isizeMax < a * b) :
    (mulUsize a b >>= fun capacity => withCapacity capacity >>= f) = .error .panic := by
  rw [mulUsize]
  split
  · show withCapacity (a * b) >>= f = _
    rw [withCapacity, if_neg (by omega)]
    rfl
  · rw [overflow, if_pos hchecked]
    rfl

end Allocate

/-! ### Rows of four bytes a pixel -/

/-- What a row pushes: its pixels, each painted over. -/
def Pushes (push : List UInt8 → List UInt8 → Outcome (List UInt8)) (paint : Bgra → Bgra) : Prop :=
  ∀ {P : Prop} {pixels row : List UInt8} {n : ℕ}, row.length = n * 4 →
    (isizeMax < pixels.length + row.length → P) →
    (push pixels row).Ends P fun pixels' => pixels' = pixels ++ Bgra.flat ((Bgra.chunks row).map paint)

theorem pushes_extendFromSlice : Pushes extendFromSlice id := by
  intro P pixels row n hrow hP
  rw [List.map_id, (Bgra.flat_chunks hrow).2]
  exact extendFromSlice_ends hP

theorem foldlM_maskedPixel_ends {P : Prop} (chunks : List Bgra) {pixels : List UInt8}
    (hP : isizeMax < pixels.length + chunks.length * 4 → P) :
    (chunks.foldlM (fun pixels chunk => extendFromSlice pixels (maskedPixel chunk).bytes) pixels).Ends P
      fun pixels' => pixels' = pixels ++ Bgra.flat (chunks.map maskedPixel) := by
  induction chunks generalizing pixels with
  | nil =>
      show pixels = pixels ++ []
      rw [List.append_nil]
  | cons chunk chunks ih =>
      rw [List.length_cons] at hP
      rw [List.foldlM_cons]
      apply Outcome.Ends.bind (extendFromSlice_ends fun h => hP ?_)
      · rintro pixels' rfl
        rw [List.map_cons, Bgra.flat_cons, ← List.append_assoc]
        apply ih
        intro h
        rw [List.length_append, Bgra.bytes_length] at h
        exact hP (by omega)
      · rw [Bgra.bytes_length] at h
        omega

theorem pushes_pushMasked : Pushes pushMasked maskedPixel := by
  intro P pixels row n hrow hP
  apply foldlM_maskedPixel_ends
  rw [(Bgra.flat_chunks hrow).1, ← hrow]
  exact hP

/-- The row that is cut out of the buffer. -/
theorem read_slice {buf : List UInt8} {off n x : ℕ} (hx : x < n) :
    Bgra.read ((buf.take (off + n * 4)).drop off) (x * 4) = Bgra.read buf (off + x * 4) := by
  simp only [Bgra.read, List.getElem?_drop, Nat.add_assoc]
  rw [List.getElem?_take_of_lt (by omega), List.getElem?_take_of_lt (by omega),
    List.getElem?_take_of_lt (by omega), List.getElem?_take_of_lt (by omega)]

section Rows

variable [BuildProfile] {push : List UInt8 → List UInt8 → Outcome (List UInt8)} {paint : Bgra → Bgra}
  {raw : ByteSlice} {P : Prop}

theorem rowEnd_ends {off row_bytes : ℕ} (hlt : off + row_bytes < 2 ^ 64) :
    (rowEnd raw off row_bytes).Ends P fun stop =>
      stop = off + row_bytes ∧ off + row_bytes ≤ raw.bytes.length := by
  rw [rowEnd, checkedAddUsize, if_pos hlt, addUsize_of_lt hlt]
  by_cases hle : off + row_bytes ≤ raw.bytes.length
  · rw [Option.filter_some_pos (by simpa using hle)]
    exact ⟨rfl, hle⟩
  · rw [Option.filter_some_neg (by simpa using hle)]
    trivial

/-- The rows above `y` are drawn, and the buffer holds them. -/
structure RowsDrawn (paint : Bgra → Bgra) (width pitch : ℕ) (raw : ByteSlice) (y : ℕ)
    (pixels : List UInt8) : Prop where
  drawn : DrawnTo width (fun x y => (Bgra.read raw.bytes (y * pitch + x * 4)).map paint) (y * width)
    pixels
  held : y * pitch ≤ raw.bytes.length + pitch

/-- **One row.**  It is drawn, or the buffer is too short for it; the place where it would end is in range
because the buffer held the row above. -/
theorem decodeRow_ends (hpush : Pushes push paint) {width pitch : UInt32} {y : ℕ} {pixels : List UInt8}
    (hrows : RowsDrawn paint width.toNat pitch.toNat raw y pixels)
    (hP : isizeMax < (y + 1) * width.toNat * 4 → P) :
    (decodeRow push (width.toNat * 4) pitch.toNat raw pixels y).Ends P
      (RowsDrawn paint width.toNat pitch.toNat raw (y + 1)) := by
  have hraw := raw.length_le
  rw [isizeMax] at hraw
  have hwidth : width.toNat < 2 ^ 32 := width.toNat_lt
  have hpitch : pitch.toNat < 2 ^ 32 := pitch.toNat_lt
  have hheld := hrows.held
  rw [decodeRow, mulUsize_of_lt (by omega)]
  show Outcome.Ends P _ (rowEnd raw (y * pitch.toNat) (width.toNat * 4) >>= _)
  refine (rowEnd_ends (by omega)).bind ?_
  rintro stop ⟨rfl, hle⟩
  rw [slice_of_le (Nat.le_add_right ..) hle]
  show Outcome.Ends P _ (push pixels _)
  have hrow : ((raw.bytes.take (y * pitch.toNat + width.toNat * 4)).drop (y * pitch.toNat)).length =
      width.toNat * 4 := by
    rw [List.length_drop, List.length_take, Nat.min_eq_left hle, Nat.add_sub_cancel_left]
  refine (hpush hrow ?_).mono id ?_
  · rw [hrow, hrows.drawn.length]
    intro h
    apply hP
    rw [Nat.add_mul, Nat.one_mul]
    omega
  · rintro pixels' rfl
    constructor
    · obtain ⟨ps, rfl, hps⟩ := hrows.drawn
      rw [← Bgra.flat_append]
      refine ⟨_, rfl, hps.append_row ?_ ?_⟩
      · rw [List.length_map, (Bgra.flat_chunks hrow).1]
      · intro x hx
        rw [List.getElem?_map, Bgra.chunks_getElem? hrow, read_slice hx]
    · rw [Nat.add_mul, Nat.one_mul]
      omega

/-- **The layouts with four bytes a pixel.**  A panic is left to pictures that are larger than an allocation
can be. -/
theorem decodeRows_ends {kind : ShapeKind} {kind_raw width height pitch : UInt32} {hot_x hot_y : ℤ}
    (hpush : Pushes push paint) (hkind : ShapeKind.fromRaw kind_raw = some kind)
    (hcolour : kind ≠ .monochrome) (hlayout : layoutPixel kind raw.bytes pitch.toNat height.toNat =
      fun x y => (Bgra.read raw.bytes (y * pitch.toNat + x * 4)).map paint) :
    (decodeRows kind push width height pitch hot_x hot_y raw).Ends
      (isizeMax < width.toNat * height.toNat * 4)
      (CursorShape.Exact kind_raw width height pitch hot_x hot_y raw) := by
  have hwidth : width.toNat < 2 ^ 32 := width.toNat_lt
  have harea : width.toNat * 4 * height.toNat = width.toNat * height.toNat * 4 := by
    rw [Nat.mul_right_comm]
  rw [decodeRows, mulUsize_of_lt (by omega)]
  show Outcome.Ends _ _ (mulUsize (width.toNat * 4) height.toNat >>= _)
  apply allocate_ends
  · rw [harea]
    exact id
  have hloop : ((List.range height.toNat).foldlM
      (decodeRow push (width.toNat * 4) pitch.toNat raw) []).Ends
      (isizeMax < width.toNat * height.toNat * 4)
      (RowsDrawn paint width.toNat pitch.toNat raw height.toNat) := by
    apply Outcome.ends_foldlM_range
    · constructor
      · exact .nil
      · rw [Nat.zero_mul]
        exact Nat.zero_le _
    · intro y hy pixels hrows
      apply decodeRow_ends hpush hrows
      intro h
      apply Nat.lt_of_lt_of_le h
      rw [Nat.mul_comm width.toNat]
      exact Nat.mul_le_mul_right 4 (Nat.mul_le_mul_right _ hy)
  refine hloop.bind fun pixels hrows => exact_of_drawn hkind (if_neg hcolour).symm ?_
  rw [hlayout]
  exact hrows.drawn

theorem decodeColor_ends {kind_raw width height pitch : UInt32} {hot_x hot_y : ℤ}
    (hkind : ShapeKind.fromRaw kind_raw = some .color) :
    (decodeColor width height pitch hot_x hot_y raw).Ends
      (isizeMax < width.toNat * height.toNat * 4)
      (CursorShape.Exact kind_raw width height pitch hot_x hot_y raw) := by
  apply decodeRows_ends pushes_extendFromSlice hkind
  · intro h
    cases h
  · funext x y
    rw [Option.map_id]
    rfl

theorem decodeMaskedColor_ends {kind_raw width height pitch : UInt32} {hot_x hot_y : ℤ}
    (hkind : ShapeKind.fromRaw kind_raw = some .maskedColor) :
    (decodeMaskedColor width height pitch hot_x hot_y raw).Ends
      (isizeMax < width.toNat * height.toNat * 4)
      (CursorShape.Exact kind_raw width height pitch hot_x hot_y raw) := by
  apply decodeRows_ends pushes_pushMasked hkind
  · intro h
    cases h
  · funext x y
    rfl

end Rows

/-! ### Masks -/

/-- One bit of a byte, as the masks are read. -/
theorem and_mask_ne_zero (byte : UInt8) {k : ℕ} (hk : k < 8) :
    (byte &&& (1 <<< UInt8.ofNat k) != 0) = byte.toNat.testBit k := by
  have hmasks : ∀ i < 8, ((1 : UInt8) <<< UInt8.ofNat i).toNat = 2 ^ i := by decide
  have hmask := hmasks k hk
  have hand : (byte &&& (1 <<< UInt8.ofNat k)).toNat = (byte.toNat.testBit k).toNat * 2 ^ k := by
    rw [UInt8.toNat_and, hmask, Nat.and_two_pow]
  cases hbit : byte.toNat.testBit k with
  | false =>
      rw [hbit, Bool.toNat_false, Nat.zero_mul] at hand
      have hzero : byte &&& (1 <<< UInt8.ofNat k) = 0 := UInt8.toNat_inj.1 hand
      rw [hzero]
      rfl
  | true =>
      rw [hbit, Bool.toNat_true, Nat.one_mul] at hand
      rw [bne_iff_ne]
      intro hzero
      rw [hzero] at hand
      exact absurd hand.symm (Nat.two_pow_pos k).ne'

section Masks

variable [BuildProfile] {raw : ByteSlice} {P : Prop}

/-- **One monochrome pixel.** -/
theorem monochromeAt_ends {pitch width height x y : ℕ} {pixels : List UInt8} (hx : x < width)
    (hy : y < height) (hwidth : width < 2 ^ 32) (hmasks : height * pitch * 2 ≤ raw.bytes.length)
    (hdrawn : DrawnTo width (layoutPixel .monochrome raw.bytes pitch height) (y * width + x) pixels)
    (hindex : raw.bytes.length ≤ height * pitch + y * pitch + x / 8 → P)
    (hP : isizeMax < (y * width + (x + 1)) * 4 → P) :
    (monochromeAt pitch (height * pitch) raw y pixels x).Ends P
      (DrawnTo width (layoutPixel .monochrome raw.bytes pitch height) (y * width + (x + 1))) := by
  have hraw := raw.length_le
  rw [isizeMax] at hraw
  have hrow : y * pitch + pitch ≤ height * pitch := by
    calc y * pitch + pitch = (y + 1) * pitch := by rw [Nat.add_mul, Nat.one_mul]
      _ ≤ height * pitch := Nat.mul_le_mul_right pitch hy
  unfold monochromeAt
  rw [mulUsize_of_lt (by omega)]
  show Outcome.Ends P _ (addUsize (y * pitch) (x / 8) >>= _)
  rw [addUsize_of_lt (by omega)]
  show Outcome.Ends P _ (index raw.bytes (y * pitch + x / 8) >>= _)
  refine Outcome.Ends.bind (index_ends fun h => hindex (by omega)) fun and_byte hand => ?_
  show Outcome.Ends P _ (addUsize (height * pitch) (y * pitch) >>= _)
  rw [addUsize_of_lt (by omega)]
  show Outcome.Ends P _ (addUsize (height * pitch + y * pitch) (x / 8) >>= _)
  rw [addUsize_of_lt (by omega)]
  show Outcome.Ends P _ (index raw.bytes (height * pitch + y * pitch + x / 8) >>= _)
  refine Outcome.Ends.bind (index_ends hindex) fun xor_byte hxor => ?_
  refine (extendFromSlice_ends fun h => hP ?_).mono id ?_
  · rw [hdrawn.length, Bgra.bytes_length] at h
    omega
  · rintro pixels' rfl
    obtain ⟨ps, rfl, hps⟩ := hdrawn
    rw [← Bgra.flat_singleton, ← Bgra.flat_append]
    refine ⟨_, rfl, hps.concat_in_row hx ?_⟩
    have hbit : 7 - x % 8 < 8 := by omega
    rw [and_mask_ne_zero and_byte hbit, and_mask_ne_zero xor_byte hbit]
    simp only [layoutPixel, hand, hxor]
    rfl

/-- The loops over the rows and the columns. -/
theorem monochromePixels_ends {pitch width height : ℕ} (hwidth : width < 2 ^ 32)
    (hmasks : height * pitch * 2 ≤ raw.bytes.length)
    (hindex : raw.bytes.length + pitch ≤ height * pitch * 2 + (width - 1) / 8 → P)
    (hP : isizeMax < width * height * 4 → P) :
    (monochromePixels width height pitch (height * pitch) raw []).Ends P
      (DrawnTo width (layoutPixel .monochrome raw.bytes pitch height) (height * width)) := by
  apply Outcome.ends_foldlM_range (I := fun y => DrawnTo width
    (layoutPixel .monochrome raw.bytes pitch height) (y * width)) .nil
  intro y hy pixels hdrawn
  have hrow : (y + 1) * pitch ≤ height * pitch := Nat.mul_le_mul_right pitch hy
  have harea : (y + 1) * width ≤ width * height := by
    rw [Nat.mul_comm width]
    exact Nat.mul_le_mul_right width hy
  rw [Nat.add_mul, Nat.one_mul] at hrow harea ⊢
  apply Outcome.ends_foldlM_range (I := fun x => DrawnTo width
    (layoutPixel .monochrome raw.bytes pitch height) (y * width + x)) hdrawn
  intro x hx pixels hdrawn
  apply monochromeAt_ends hx hy hwidth hmasks hdrawn
  · intro h
    apply hindex
    have hbyte : x / 8 ≤ (width - 1) / 8 := Nat.div_le_div_right (by omega)
    omega
  · intro h
    exact hP (by omega)

end Masks

/-! ### Which buffers fit -/

/-- The two masks are refused before a pixel is drawn; or the picture can be allocated and the last row of the
second mask is inside the buffer. -/
def MasksFit (width height_raw pitch : UInt32) (raw : ByteSlice) : Prop :=
  height_raw.toNat % 2 = 1 ∨ raw.bytes.length < height_raw.toNat / 2 * pitch.toNat * 2 ∨
    width.toNat * (height_raw.toNat / 2) * 4 ≤ isizeMax ∧
      (height_raw.toNat - 1) * pitch.toNat + (width.toNat - 1) / 8 < raw.bytes.length

/-- No size or place that the decoder computes for a picture of this kind is out of range. -/
def KindFits (kind : ShapeKind) (width height_raw pitch : UInt32) (raw : ByteSlice) : Prop :=
  match kind with
  | .monochrome => MasksFit width height_raw pitch raw
  | .color | .maskedColor => width.toNat * height_raw.toNat * 4 ≤ isizeMax

/-- A buffer of a known kind, for a picture that is not empty, fits. -/
def ShapeFits (kind_raw width height_raw pitch : UInt32) (raw : ByteSlice) : Prop :=
  ∀ kind, ShapeKind.fromRaw kind_raw = some kind → width ≠ 0 → height_raw ≠ 0 →
    KindFits kind width height_raw pitch raw

section Fits

variable {kind_raw width height_raw pitch : UInt32} {hot_x hot_y : ℤ} {raw : ByteSlice}

theorem half_toNat (n : UInt32) : (n / 2).toNat = n.toNat / 2 := by
  rw [UInt32.toNat_div]
  rfl

theorem odd_iff (n : UInt32) : n % 2 ≠ 0 ↔ n.toNat % 2 = 1 := by
  rw [ne_eq, ← UInt32.toNat_inj, UInt32.toNat_mod]
  show ¬ n.toNat % 2 = 0 ↔ _
  omega

/-- The last row of the second mask, by the rows above it. -/
theorem lastRow_add (hheight : height_raw ≠ 0) (heven : height_raw.toNat % 2 = 0) :
    (height_raw.toNat - 1) * pitch.toNat + pitch.toNat = height_raw.toNat / 2 * pitch.toNat * 2 := by
  have hpos : height_raw.toNat ≠ 0 := by
    intro h
    exact hheight (UInt32.toNat_inj.1 h)
  calc (height_raw.toNat - 1) * pitch.toNat + pitch.toNat
      = (height_raw.toNat - 1 + 1) * pitch.toNat := by rw [Nat.add_mul, Nat.one_mul]
    _ = height_raw.toNat / 2 * 2 * pitch.toNat := by
        rw [show height_raw.toNat - 1 + 1 = height_raw.toNat / 2 * 2 by omega]
    _ = height_raw.toNat / 2 * pitch.toNat * 2 := Nat.mul_right_comm ..

theorem masks_lt : height_raw.toNat / 2 * pitch.toNat * 2 < 2 ^ 64 := by
  have hheight : height_raw.toNat < 2 ^ 32 := height_raw.toNat_lt
  have hpitch : pitch.toNat < 2 ^ 32 := pitch.toNat_lt
  calc height_raw.toNat / 2 * pitch.toNat * 2 = height_raw.toNat / 2 * 2 * pitch.toNat :=
        Nat.mul_right_comm ..
    _ ≤ 2 ^ 32 * pitch.toNat := Nat.mul_le_mul_right _ (by omega)
    _ < 2 ^ 32 * 2 ^ 32 := Nat.mul_lt_mul_of_pos_left hpitch (by decide)

theorem area_lt : width.toNat * (height_raw.toNat / 2) < 2 ^ 64 := by
  have hheight : height_raw.toNat < 2 ^ 32 := height_raw.toNat_lt
  have hwidth : width.toNat < 2 ^ 32 := width.toNat_lt
  calc width.toNat * (height_raw.toNat / 2) ≤ width.toNat * 2 ^ 32 :=
        Nat.mul_le_mul_left _ (by omega)
    _ < 2 ^ 32 * 2 ^ 32 := Nat.mul_lt_mul_of_pos_right hwidth (by decide)

variable [BuildProfile]

/-- Masks that are refused. -/
theorem decodeMonochrome_of_odd (hodd : height_raw.toNat % 2 = 1) :
    decodeMonochrome width height_raw pitch hot_x hot_y raw = .error (.err .win32) := by
  rw [decodeMonochrome, if_pos ((odd_iff _).2 hodd)]
  rfl

theorem decodeMonochrome_of_even (heven : height_raw.toNat % 2 = 0) :
    decodeMonochrome width height_raw pitch hot_x hot_y raw =
      if raw.bytes.length < height_raw.toNat / 2 * pitch.toNat * 2 then .error (.err .win32)
      else mulUsize (width.toNat * (height_raw.toNat / 2)) 4 >>= fun capacity =>
        withCapacity capacity >>= fun pixels => do
          let pixels ← monochromePixels width.toNat (height_raw.toNat / 2) pitch.toNat
            (height_raw.toNat / 2 * pitch.toNat) raw pixels
          return { kind := .monochrome, width, height := height_raw / 2, hot_x, hot_y, pixels } := by
  have hmasks := @masks_lt height_raw pitch
  rw [decodeMonochrome, if_neg fun h => by have := (odd_iff _).1 h; omega]
  dsimp only
  rw [half_toNat, mulUsize_of_lt (by omega)]
  show (mulUsize (height_raw.toNat / 2 * pitch.toNat) 2 >>= _) = _
  rw [mulUsize_of_lt hmasks, mulUsize_of_lt area_lt]
  rfl

/-- **The stacked masks.** -/
theorem decodeMonochrome_ends (hkind : ShapeKind.fromRaw kind_raw = some .monochrome)
    (hheight : height_raw ≠ 0) :
    (decodeMonochrome width height_raw pitch hot_x hot_y raw).Ends
      (¬ MasksFit width height_raw pitch raw)
      (CursorShape.Exact kind_raw width height_raw pitch hot_x hot_y raw) := by
  have hwidth : width.toNat < 2 ^ 32 := width.toNat_lt
  rcases Nat.mod_two_eq_zero_or_one height_raw.toNat with heven | hodd
  · rw [decodeMonochrome_of_even heven]
    split
    · trivial
    case isFalse hlong =>
      have hlast := @lastRow_add _ pitch hheight heven
      -- past the two checks, `MasksFit` is its last case
      have hfits : MasksFit width height_raw pitch raw →
          width.toNat * (height_raw.toNat / 2) * 4 ≤ isizeMax ∧
            (height_raw.toNat - 1) * pitch.toNat + (width.toNat - 1) / 8 < raw.bytes.length := by
        rintro (h | h | h)
        · omega
        · exact absurd h hlong
        · exact h
      have hlarge : isizeMax < width.toNat * (height_raw.toNat / 2) * 4 →
          ¬ MasksFit width height_raw pitch raw := by
        intro hlt h
        exact absurd (hfits h).1 (by omega)
      apply allocate_ends hlarge
      refine (monochromePixels_ends hwidth (by omega) ?_ hlarge).bind fun pixels hdrawn => ?_
      · intro hshort h
        have hinside := (hfits h).2
        omega
      · apply exact_of_drawn hkind (if_pos rfl).symm
        rw [half_toNat]
        exact hdrawn
  · rw [decodeMonochrome_of_odd hodd]
    trivial

/-- **What the decoder returns is exact**, and where it panics the buffer does not fit. -/
theorem decodeShape_ends : (decodeShape kind_raw width height_raw pitch hot_x hot_y raw).Ends
    (¬ ShapeFits kind_raw width height_raw pitch raw)
    (CursorShape.Exact kind_raw width height_raw pitch hot_x hot_y raw) := by
  rw [decodeShape]
  cases hkind : ShapeKind.fromRaw kind_raw with
  | none => trivial
  | some kind =>
      show Outcome.Ends _ _ (ite _ _ _)
      split
      · trivial
      case isFalse hzero =>
        rw [not_or] at hzero
        have hfits : ShapeFits kind_raw width height_raw pitch raw →
            KindFits kind width height_raw pitch raw :=
          fun h => h kind hkind hzero.1 hzero.2
        cases kind with
        | color =>
            refine (decodeColor_ends hkind).mono ?_ fun _ => id
            intro hlarge h
            exact Nat.not_le.2 hlarge (hfits h)
        | maskedColor =>
            refine (decodeMaskedColor_ends hkind).mono ?_ fun _ => id
            intro hlarge h
            exact Nat.not_le.2 hlarge (hfits h)
        | monochrome =>
            refine (decodeMonochrome_ends hkind hzero.2).mono ?_ fun _ => id
            intro hmasks h
            exact hmasks (hfits h)

/-! ### Where it panics -/

theorem unfailing_monochromeAt (pitch xor_off y : ℕ) (pixels : List UInt8) (x : ℕ) :
    (monochromeAt pitch xor_off raw y pixels x).Unfailing := by
  unfold monochromeAt
  apply (unfailing_mulUsize _ _).bind
  intro and_row _
  apply (unfailing_addUsize _ _).bind
  intro and_idx _
  apply (unfailing_index _ _).bind
  intro and_byte _
  apply (unfailing_mulUsize _ _).bind
  intro xor_row _
  apply (unfailing_addUsize _ _).bind
  intro xor_start _
  apply (unfailing_addUsize _ _).bind
  intro xor_idx _
  apply (unfailing_index _ _).bind
  intro xor_byte _
  exact unfailing_extendFromSlice _ _

theorem unfailing_monochromePixels (width height pitch xor_off : ℕ) (pixels : List UInt8) :
    (monochromePixels width height pitch xor_off raw pixels).Unfailing := by
  apply Outcome.Unfailing.foldlM
  intro pixels y
  apply Outcome.Unfailing.foldlM
  intro pixels x
  exact unfailing_monochromeAt pitch xor_off y pixels x

omit [BuildProfile] in
theorem lt_length_of_layoutPixel {buf : List UInt8} {stride height x y : ℕ} {p : Bgra}
    (h : layoutPixel .monochrome buf stride height x y = some p) :
    height * stride + y * stride + x / 8 < buf.length := by
  obtain ⟨and_byte, -, h⟩ := Option.bind_eq_some_iff.1 h
  obtain ⟨xor_byte, hxor, -⟩ := Option.bind_eq_some_iff.1 h
  exact (List.getElem?_eq_some_iff.1 hxor).1

omit [BuildProfile] in
/-- Of a picture that is returned the last pixel was in the second mask. -/
theorem CursorShape.Exact.inside {shape : CursorShape} (hwidth : width ≠ 0) (hheight : height_raw ≠ 0)
    (hkind : shape.kind = .monochrome) (heven : height_raw.toNat % 2 = 0)
    (h : shape.Exact kind_raw width height_raw pitch hot_x hot_y raw) :
    (height_raw.toNat - 1) * pitch.toNat + (width.toNat - 1) / 8 < raw.bytes.length := by
  have hlast := @lastRow_add _ pitch hheight heven
  have hwpos : width.toNat ≠ 0 := fun hz => hwidth (UInt32.toNat_inj.1 hz)
  have hhpos : height_raw.toNat ≠ 0 := fun hz => hheight (UInt32.toNat_inj.1 hz)
  have hw : shape.width.toNat = width.toNat := by rw [h.width]
  have hh : shape.height.toNat = height_raw.toNat / 2 := by
    rw [h.height, if_pos hkind, half_toNat]
  obtain ⟨p, -, hp⟩ := h.pixel (width.toNat - 1) (by omega) (height_raw.toNat / 2 - 1) (by omega)
  rw [hkind, hh] at hp
  have hlt := lt_length_of_layoutPixel hp
  have hrow : (height_raw.toNat / 2 - 1) * pitch.toNat + pitch.toNat =
      height_raw.toNat / 2 * pitch.toNat := by
    calc (height_raw.toNat / 2 - 1) * pitch.toNat + pitch.toNat
        = (height_raw.toNat / 2 - 1 + 1) * pitch.toNat := by rw [Nat.add_mul, Nat.one_mul]
      _ = height_raw.toNat / 2 * pitch.toNat := by rw [Nat.sub_add_cancel (by omega)]
  omega

/-- Four bytes a pixel, in a checked build. -/
theorem decodeRows_of_large (hchecked : BuildProfile.overflowChecks = true) {kind : ShapeKind}
    {push : List UInt8 → List UInt8 → Outcome (List UInt8)}
    (hlarge : isizeMax < width.toNat * height_raw.toNat * 4) :
    decodeRows kind push width height_raw pitch hot_x hot_y raw = .error .panic := by
  have hwidth : width.toNat < 2 ^ 32 := width.toNat_lt
  rw [decodeRows, mulUsize_of_lt (by omega)]
  apply allocate_of_large hchecked
  rw [Nat.mul_right_comm]
  exact hlarge

/-- The stacked masks, in a checked build. -/
theorem decodeMonochrome_of_not_fit (hchecked : BuildProfile.overflowChecks = true)
    (hkind : ShapeKind.fromRaw kind_raw = some .monochrome) (hwidth : width ≠ 0)
    (hheight : height_raw ≠ 0) (hfit : ¬ MasksFit width height_raw pitch raw) :
    decodeMonochrome width height_raw pitch hot_x hot_y raw = .error .panic := by
  rw [MasksFit, not_or, not_or] at hfit
  obtain ⟨hodd, hlong, hfit⟩ := hfit
  have heven : height_raw.toNat % 2 = 0 := by omega
  have hends := @decodeMonochrome_ends _ width _ pitch hot_x hot_y raw _ hkind hheight
  rw [decodeMonochrome_of_even heven, if_neg hlong] at hends ⊢
  by_cases hlarge : isizeMax < width.toNat * (height_raw.toNat / 2) * 4
  · exact allocate_of_large hchecked hlarge
  · apply Outcome.eq_panic
    · apply (unfailing_mulUsize _ _).bind
      intro capacity _
      apply (unfailing_withCapacity _).bind
      intro pixels _
      apply (unfailing_monochromePixels _ _ _ _ _).bind
      intro pixels _
      exact Outcome.unfailing_ok _
    · intro shape hshape
      rw [hshape] at hends
      have hexact : shape.Exact kind_raw width height_raw pitch hot_x hot_y raw := hends
      have hmono : shape.kind = .monochrome := Option.some.inj (hexact.kind.symm.trans hkind)
      exact hfit ⟨by omega, hexact.inside hwidth hheight hmono heven⟩

theorem decodeShape_of_not_fit (hchecked : BuildProfile.overflowChecks = true)
    (hfit : ¬ ShapeFits kind_raw width height_raw pitch raw) :
    decodeShape kind_raw width height_raw pitch hot_x hot_y raw = .error .panic := by
  rw [ShapeFits] at hfit
  push Not at hfit
  obtain ⟨kind, hkind, hwidth, hheight, hfit⟩ := hfit
  rw [decodeShape, hkind]
  show ite _ _ _ = _
  rw [if_neg (not_or.2 ⟨hwidth, hheight⟩)]
  cases kind with
  | color => exact decodeRows_of_large hchecked (Nat.not_le.1 hfit)
  | maskedColor => exact decodeRows_of_large hchecked (Nat.not_le.1 hfit)
  | monochrome => exact decodeMonochrome_of_not_fit hchecked hkind hwidth hheight hfit

end Fits

/-! ### The law -/

/-- In every build the decoder returns an exact shape or an error. -/
def Decodes (kind_raw width height_raw pitch : UInt32) (hot_x hot_y : ℤ) (raw : ByteSlice) : Prop :=
  ∀ _ : BuildProfile, (decodeShape kind_raw width height_raw pitch hot_x hot_y raw).Ends False
    (CursorShape.Exact kind_raw width height_raw pitch hot_x hot_y raw)

/-- **Which buffers are decoded.**  A shape that is returned is always exact; that a shape or an error is
returned at all holds exactly of the buffers that fit. -/
theorem decodeShape_iff (kind_raw width height_raw pitch : UInt32) (hot_x hot_y : ℤ) (raw : ByteSlice) :
    (Decodes kind_raw width height_raw pitch hot_x hot_y raw ↔
      ShapeFits kind_raw width height_raw pitch raw) ∧
      ∀ _ : BuildProfile, ∀ shape,
        decodeShape kind_raw width height_raw pitch hot_x hot_y raw = .ok shape →
          shape.Exact kind_raw width height_raw pitch hot_x hot_y raw := by
  refine ⟨⟨fun h => ?_, fun hfits build => ?_⟩, fun build shape hshape => ?_⟩
  · by_contra hfit
    let checked : BuildProfile := ⟨true⟩
    have hends := h checked
    rw [decodeShape_of_not_fit rfl hfit] at hends
    exact hends
  · exact decodeShape_ends.mono (fun hfit => hfit hfits) fun _ => id
  · have hends := @decodeShape_ends kind_raw width height_raw pitch hot_x hot_y raw build
    rw [hshape] at hends
    exact hends

/-- A cursor of one pixel whose masks have rows of no bytes, in an empty buffer: the length check passes,
and the first byte is not there. -/
theorem not_decodes_noRows : ¬ Decodes 1 1 2 0 0 0 ⟨[], by decide⟩ := by
  intro h
  have hfit : ¬ ShapeFits 1 1 2 0 ⟨[], by decide⟩ := by
    intro hfits
    rcases hfits .monochrome rfl (by decide) (by decide) with hodd | hshort | ⟨-, hinside⟩
    · exact absurd hodd (by decide)
    · exact absurd hshort (by decide)
    · exact absurd hinside (by decide)
  let checked : BuildProfile := ⟨true⟩
  have hends := h checked
  rw [decodeShape_of_not_fit rfl hfit] at hends
  exact hends

end Penflow
