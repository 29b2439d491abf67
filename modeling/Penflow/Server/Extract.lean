import Penflow.Server.Session

/-!
# Splitting and extracting NALs

The ranges of the splitter cut a stream from its first start code on, and extraction puts some of
them together again.  A range put in front of a three-byte code may lose a zero at its end to that
code, so the second split need not find the same ranges; it does find the same types, and the bytes
put together from them are the same (`splitNals_extract`).
-/

namespace Penflow

open AnnexB

/-! ### Ranges -/

/-- Ranges one behind the other, none of them empty. -/
def Contiguous : ℕ → ℕ → List (ℕ × ℕ × UInt8) → Prop
  | first, last, [] => first = last
  | first, last, (start_off, end_off, _) :: ranges =>
    start_off = first ∧ start_off < end_off ∧ Contiguous end_off last ranges

/-- The length of the start code `s` begins with. -/
def startCodeLen (s : List UInt8) : ℕ := if longCode <+: s then 4 else 3

/-- The range of a NAL: a start code, and behind it no other up to its end. -/
structure NalRange (bytes : List UInt8) (start_off end_off : ℕ) : Prop where
  code : Begins (bytes.drop start_off)
  whole : start_off + startCodeLen (bytes.drop start_off) ≤ end_off
  inside : ∀ i, start_off + startCodeLen (bytes.drop start_off) ≤ i → i < end_off →
    ¬ Begins (bytes.drop i)

/-- The ranges cut `bytes` from its first start code to its end, or to a start code that ends it. -/
structure CutsAt (bytes : List UInt8) (ranges : List (ℕ × ℕ × UInt8)) (first last : ℕ) : Prop where
  contiguous : Contiguous first last ranges
  before : ∀ i < first, ¬ Begins (bytes.drop i)
  first_code : first = bytes.length ∨ Begins (bytes.drop first)
  last_code : last = bytes.length ∨ bytes.drop last = longCode ∨ bytes.drop last = shortCode
  nals : ∀ x ∈ ranges, NalRange bytes x.1 x.2.1

/-- The types a splitter reports. -/
def nalTypes (codec : Codec) (bytes : List UInt8) : List UInt8 :=
  (codec.splitNals bytes).map fun x => x.2.2

theorem codec_splitNals_join (codec : Codec) {p : List UInt8} {us : List Nal} (h : Tight p us) :
    codec.splitNals (join p us) = unitRanges codec.nalType p.length us := by
  cases codec
  · exact splitNals_join h264NalType h
  · exact splitNals_join hevcNalType h

/-! ### The ranges of units -/

theorem startCodeLen_code (u : Nal) (t : List UInt8) :
    startCodeLen (u.code ++ t) = u.code.length := by
  rcases code_cases u with h | h
  · rw [startCodeLen, h, if_pos (List.prefix_append longCode t)]
    rfl
  · rw [startCodeLen, h, if_neg (not_long_prefix_short t)]
    rfl

/-- Nothing stands behind a code when no byte does. -/
theorem unit_eq_of_head_eq_none {u : Nal} {us : List Nal} (h : (join u.payload us).head? = none) :
    us = [] ∧ u.bytes = u.code := by
  obtain rfl := join_head_eq_none h
  rw [join_nil, List.head?_eq_none_iff] at h
  rw [Nal.bytes, h, List.append_nil]
  exact ⟨rfl, rfl⟩

theorem unitRanges_contiguous (f : UInt8 → UInt8) {bytes a : List UInt8} {us : List Nal}
    (hbytes : bytes = a ++ us.flatMap Nal.bytes) :
    ∃ last, Contiguous a.length last (unitRanges f a.length us) ∧
      (last = bytes.length ∨ bytes.drop last = longCode ∨ bytes.drop last = shortCode) := by
  induction us generalizing a with
  | nil =>
      refine ⟨a.length, rfl, .inl ?_⟩
      rw [hbytes, List.flatMap_nil, List.append_nil]
  | cons u us ih =>
      have hnext := flatMap_next hbytes
      obtain ⟨last, hcont, hlast⟩ := ih hnext
      rw [List.length_append] at hcont
      rw [unitRanges]
      cases hhead : (join u.payload us).head? with
      | none =>
          -- the code that ends the stream
          obtain ⟨rfl, hcode⟩ := unit_eq_of_head_eq_none hhead
          refine ⟨a.length, rfl, .inr ?_⟩
          rw [hbytes, List.drop_left, List.flatMap_cons, List.flatMap_nil, List.append_nil, hcode]
          exact code_cases u
      | some b =>
          have hcode := three_le_code_length u
          refine ⟨last, ⟨rfl, ?_, hcont⟩, hlast⟩
          rw [Nal.bytes, List.length_append]
          omega

theorem unitRanges_nalRange (f : UInt8 → UInt8) {bytes a : List UInt8} {us : List Nal}
    (htight : Tight [] us) (hbytes : bytes = a ++ us.flatMap Nal.bytes) :
    ∀ x ∈ unitRanges f a.length us, NalRange bytes x.1 x.2.1 := by
  induction us generalizing a with
  | nil =>
      intro x hx
      cases hx
  | cons u us ih =>
      have hnext := flatMap_next hbytes
      have hrest := ih htight.2.nil hnext
      rw [List.length_append] at hrest
      have hdrop : bytes.drop a.length = u.code ++ join u.payload us := by
        rw [hbytes, List.drop_left, List.flatMap_cons, Nal.bytes, List.append_assoc]
        rfl
      have hunit : NalRange bytes a.length (a.length + u.bytes.length) := by
        have hlen : u.bytes.length = u.code.length + u.payload.length := List.length_append
        have hcodeLen : startCodeLen (bytes.drop a.length) = u.code.length := by
          rw [hdrop, startCodeLen_code]
        refine ⟨?_, ?_, ?_⟩
        · rw [hdrop]
          exact begins_code u _
        · rw [hcodeLen]
          omega
        · intro i hfrom hto
          rw [hcodeLen] at hfrom
          have hi : i - (a.length + u.code.length) < u.payload.length := by omega
          have hno := htight.2.not_begins_drop hi
          have hsame : bytes.drop i = (join u.payload us).drop (i - (a.length + u.code.length)) := by
            rw [show i = a.length + (u.code.length + (i - (a.length + u.code.length))) from by omega,
              ← List.drop_drop, hdrop, ← List.drop_drop, List.drop_left]
            congr 1
            omega
          rwa [hsame]
      rw [unitRanges]
      cases (join u.payload us).head? with
      | none => exact hrest
      | some b =>
          intro x hx
          rcases List.mem_cons.1 hx with rfl | hx
          · exact hunit
          · exact hrest x hx

/-- **The ranges cut the stream.** -/
theorem splitNals_cuts (codec : Codec) (bytes : List UInt8) :
    ∃ first last, CutsAt bytes (codec.splitNals bytes) first last := by
  obtain ⟨p, us, htight, rfl⟩ := exists_tight bytes
  obtain ⟨last, hcont, hlast⟩ := @unitRanges_contiguous codec.nalType _ p us rfl
  refine ⟨p.length, last, ?_⟩
  rw [codec_splitNals_join codec htight]
  refine ⟨hcont, fun i hi => htight.not_begins_drop hi, ?_, hlast,
    unitRanges_nalRange codec.nalType htight.nil rfl⟩
  cases us with
  | nil => exact .inl (by rw [join_nil])
  | cons u us =>
      rw [join_cons, List.drop_left]
      exact .inr (begins_code u _)

/-! ### Extraction on units -/

/-- The type of a unit, where it is one of those to keep. -/
def keptType (f : UInt8 → UInt8) (keep_types : List UInt8) (u : Nal) : Option UInt8 :=
  (u.payload.head?.map f).filter (· ∈ keep_types)

theorem code_head (u : Nal) (t : List UInt8) : (u.code ++ t).head? = some 0 := by
  rcases code_cases u with h | h <;> rw [h] <;> rfl

section Units

variable {f : UInt8 → UInt8} {keep_types : List UInt8}

/-- The type the splitter reports is kept exactly when that of the unit is: an empty NAL is reported
with the type of a zero. -/
theorem keptType_eq (hzero : f 0 ∉ keep_types) (u : Nal) (us : List Nal) :
    keptType f keep_types u = ((join u.payload us).head?.map f).filter (· ∈ keep_types) := by
  rw [keptType]
  cases hp : u.payload with
  | cons b t => rfl
  | nil =>
      cases us with
      | nil => rfl
      | cons v us =>
          rw [join_cons, List.nil_append, code_head, Option.map_some, Option.filter_some_neg]
          · rfl
          · simpa using hzero

/-- Extraction keeps whole units. -/
theorem flatMap_unitRanges (hzero : f 0 ∉ keep_types) {bytes a : List UInt8} {us : List Nal}
    (hbytes : bytes = a ++ us.flatMap Nal.bytes) :
    (unitRanges f a.length us).flatMap (fun (start_off, end_off, nal_type) =>
      if nal_type ∈ keep_types then (bytes.take end_off).drop start_off else []) =
        (us.filter fun u => (keptType f keep_types u).isSome).flatMap Nal.bytes := by
  induction us generalizing a with
  | nil => rfl
  | cons u us ih =>
      have hnext := flatMap_next hbytes
      have hrest := ih hnext
      rw [List.length_append] at hrest
      rw [unitRanges, List.filter_cons, keptType_eq hzero u us]
      cases (join u.payload us).head? with
      | none => exact hrest
      | some b =>
          rw [List.flatMap_cons, hrest, Option.map_some]
          simp only
          by_cases hb : f b ∈ keep_types
          · rw [if_pos hb, take_drop_unit hbytes, Option.filter_some_pos (by simpa using hb),
              Option.isSome_some, if_pos rfl, List.flatMap_cons]
          · rw [if_neg hb, Option.filter_some_neg (by simpa using hb), Option.isSome_none,
              if_neg Bool.false_ne_true, List.nil_append]

/-- The types that are kept. -/
theorem types_unitRanges (hzero : f 0 ∉ keep_types) (off : ℕ) (us : List Nal) :
    ((unitRanges f off us).map fun x => x.2.2).filter (· ∈ keep_types) =
      us.filterMap (keptType f keep_types) := by
  induction us generalizing off with
  | nil => rfl
  | cons u us ih =>
      rw [unitRanges, List.filterMap_cons, keptType_eq hzero u us]
      cases (join u.payload us).head? with
      | none => exact ih _
      | some b =>
          by_cases hb : f b ∈ keep_types
          · rw [List.map_cons, List.filter_cons_of_pos (by simpa using hb), ih, Option.map_some,
              Option.filter_some_pos (by simpa using hb)]
          · rw [List.map_cons, List.filter_cons_of_neg (by simpa using hb), ih, Option.map_some,
              Option.filter_some_neg (by simpa using hb)]

/-- Of units that are all kept the splitter reports every type. -/
theorem types_of_kept {us : List Nal} (h : ∀ u ∈ us, (keptType f keep_types u).isSome) (off : ℕ) :
    (unitRanges f off us).map (fun x => x.2.2) = us.filterMap (keptType f keep_types) := by
  induction us generalizing off with
  | nil => rfl
  | cons u us ih =>
      obtain ⟨t, ht⟩ := Option.isSome_iff_exists.1 (h u List.mem_cons_self)
      have hrest := ih (fun v hv => h v (List.mem_cons_of_mem u hv)) (off + u.bytes.length)
      rw [List.filterMap_cons_some ht, ← hrest]
      rw [keptType, Option.filter_eq_some_iff, Option.map_eq_some_iff] at ht
      obtain ⟨⟨b, hb, rfl⟩, -⟩ := ht
      rw [unitRanges, join_head us hb, List.map_cons]

/-- The units a reader sees of kept units have their types. -/
theorem keptType_settle (hzero : f 0 ∉ keep_types) {us : List Nal}
    (h : ∀ u ∈ us, (keptType f keep_types u).isSome) (p : List UInt8) :
    (settle p us).2.map (keptType f keep_types) = us.map (keptType f keep_types) := by
  induction us generalizing p with
  | nil => rfl
  | cons u us ih =>
      obtain ⟨long, hsnd⟩ := settle_snd p u us
      rw [hsnd, List.map_cons, List.map_cons, ih fun v hv => h v (List.mem_cons_of_mem u hv)]
      congr 1
      obtain ⟨t, ht⟩ := Option.isSome_iff_exists.1 (h u List.mem_cons_self)
      have hkept := ht
      rw [keptType, Option.filter_eq_some_iff, Option.map_eq_some_iff] at ht
      obtain ⟨⟨b, hb, rfl⟩, hmem⟩ := ht
      have hne : b ≠ 0 := by
        rintro rfl
        exact hzero (by simpa using hmem)
      rw [keptType, settle_head us hb hne, keptType, hb]

end Units

/-! ### Extraction -/

theorem extractNals_join (codec : Codec) {keep_types : List UInt8} (hzero : 0 ∉ keep_types)
    {p : List UInt8} {us : List Nal} (h : Tight p us) :
    extractNals codec.splitNals (join p us) keep_types =
      join [] (us.filter fun u => (keptType codec.nalType keep_types u).isSome) := by
  have hcodec : codec.nalType 0 ∉ keep_types := by cases codec <;> exact hzero
  rw [extractNals, codec_splitNals_join codec h]
  exact flatMap_unitRanges hcodec rfl

/-- A stream of kept units: the types are those of the units, and all of it is kept. -/
theorem extractNals_of_kept (codec : Codec) {keep_types : List UInt8} (hzero : 0 ∉ keep_types)
    {ks : List Nal} (hkept : ∀ u ∈ ks, (keptType codec.nalType keep_types u).isSome)
    (hfree : ∀ u ∈ ks, Free [] u.payload) :
    nalTypes codec (join [] ks) = ks.filterMap (keptType codec.nalType keep_types) ∧
      extractNals codec.splitNals (join [] ks) keep_types = join [] ks := by
  have hcodec : codec.nalType 0 ∉ keep_types := by cases codec <;> exact hzero
  have htypes := keptType_settle hcodec hkept []
  have htight := tight_settle (p := []) trivial hfree
  have hjoin := join_settle [] ks
  have hfst : (settle [] ks).1 = [] := by
    obtain ⟨z, -, hz⟩ := settle_fst [] ks
    exact (List.append_eq_nil_iff.1 hz).1
  rw [hfst] at htight hjoin
  -- the units a reader sees are kept as well
  have hseen : ∀ u ∈ (settle [] ks).2, (keptType codec.nalType keep_types u).isSome := by
    intro u hu
    have hmem := List.mem_map_of_mem (f := keptType codec.nalType keep_types) hu
    rw [htypes] at hmem
    obtain ⟨v, hv, heq⟩ := List.mem_map.1 hmem
    rw [← heq]
    exact hkept v hv
  rw [← hjoin, nalTypes, codec_splitNals_join codec htight, types_of_kept hseen,
    extractNals_join codec hzero htight, List.filter_eq_self.2 hseen]
  refine ⟨?_, rfl⟩
  have hsome := congrArg (List.filterMap id) htypes
  rwa [List.filterMap_map, List.filterMap_map] at hsome

/-- **Splitting and extracting.**  The ranges of the splitter cut the stream; the types extracted are
the types kept; and what is extracted from an extract is the extract. -/
theorem splitNals_extract (codec : Codec) (bytes keep_types : List UInt8) (hzero : 0 ∉ keep_types) :
    (∃ first last, CutsAt bytes (codec.splitNals bytes) first last) ∧
      nalTypes codec (extractNals codec.splitNals bytes keep_types) =
        (nalTypes codec bytes).filter (· ∈ keep_types) ∧
      extractNals codec.splitNals (extractNals codec.splitNals bytes keep_types) keep_types =
        extractNals codec.splitNals bytes keep_types := by
  refine ⟨splitNals_cuts codec bytes, ?_⟩
  have hcodec : codec.nalType 0 ∉ keep_types := by cases codec <;> exact hzero
  obtain ⟨p, us, htight, rfl⟩ := exists_tight bytes
  rw [extractNals_join codec hzero htight]
  have hkept : ∀ u ∈ us.filter fun u => (keptType codec.nalType keep_types u).isSome,
      (keptType codec.nalType keep_types u).isSome := by
    intro u hu
    exact (List.mem_filter.1 hu).2
  have hfree : ∀ u ∈ us.filter fun u => (keptType codec.nalType keep_types u).isSome,
      Free [] u.payload := by
    intro u hu
    exact htight.free.2 u (List.mem_filter.1 hu).1
  obtain ⟨htypes, hagain⟩ := extractNals_of_kept codec hzero hkept hfree
  refine ⟨?_, hagain⟩
  rw [htypes, nalTypes, codec_splitNals_join codec htight, types_unitRanges hcodec,
    List.filterMap_filter]
  congr 1
  funext u
  cases keptType codec.nalType keep_types u <;> rfl

/-- A PPS behind an SPS that ends in a zero: the zero becomes part of the start code of the PPS. -/
theorem splitNals_extract_zero :
    let bytes : List UInt8 := [9, 0, 0, 1, 103, 66, 0, 0, 0, 0, 1, 9, 240, 0, 0, 1, 104, 206, 0, 0, 1]
    (∃ first last, CutsAt bytes (splitH264Nals bytes) first last) ∧
      nalTypes .h264 (extractH264Nals bytes [7, 8]) = [7, 8] ∧
      extractH264Nals (extractH264Nals bytes [7, 8]) [7, 8] = extractH264Nals bytes [7, 8] := by
  intro bytes
  obtain ⟨hcuts, htypes, hagain⟩ := splitNals_extract .h264 bytes [7, 8] (by decide)
  exact ⟨hcuts, htypes.trans (by decide), hagain⟩

end Penflow
