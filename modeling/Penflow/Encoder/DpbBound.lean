import Penflow.Encoder.RefPicSets

/-!
# Reference pictures and the decoded picture buffer

A reference picture set may not have more pictures than the decoded picture buffer has room for
besides the current one.  The full walk sets that room to zero and copies the sets.

`patchHevcSpsFull_respects_iff` says which inputs survive that: those whose sets are all empty.
-/

namespace Penflow

open BitString BitSyntax SyntaxReader

/-! ### The bound -/

/-- `sps_max_dec_pic_buffering_minus1` of the highest sub-layer, whose triplet is the last. -/
def HevcSpsHead.highestDecPicBuffering (head : HevcSpsHead) : ℕ :=
  (head.dpb.getLast?.map HevcDpb.sps_max_dec_pic_buffering_minus1).getD 0

/-- A set has at most `n` pictures, on each side and in all. -/
def RefPics.Within (n : ℕ) (pics : RefPics) : Prop :=
  pics.negative.length ≤ n ∧ pics.positive.length ≤ n ∧ pics.numDeltaPocs ≤ n

namespace Rbsp

/-- From the coding block sizes to the number of reference picture sets. -/
def hevcCodingTools : Rbsp ℕ := do
  let _ ← ue
  let _ ← ue
  let _ ← ue
  let _ ← ue
  let _ ← ue
  let _ ← ue
  let scaling_list_enabled_flag ← u 1
  let _ ← given (scaling_list_enabled_flag = 1) do
    let sps_scaling_list_data_present_flag ← u 1
    refuseIf (sps_scaling_list_data_present_flag = 1)
  let _ ← u 1
  let _ ← u 1
  let _ ← flagged hevcPcm
  ue

/-- An SPS up to its reference picture sets, which are read as the standard reads them. -/
def hevcSpsSets : Rbsp (HevcSpsHead × List HevcStRefPicSet) := do
  let head ← hevcSpsHead
  let num_short_term_ref_pic_sets ← hevcCodingTools
  let sets ← stRefPicSets num_short_term_ref_pic_sets
  pure (head, sets)

end Rbsp

/-- **The bound of the standard.**  Every reference picture set of an SPS fits its decoded picture
buffer. -/
def RespectsDpb (rbsp : List UInt8) : Prop :=
  ∃ head sets s, Rbsp.hevcSpsSets.parse (bytesBits rbsp) = .ok ((head, sets), s) ∧
    ∀ pics ∈ derivedPics RefPics.none sets, pics.Within head.highestDecPicBuffering

instance (n : ℕ) (pics : RefPics) : Decidable (pics.Within n) :=
  inferInstanceAs (Decidable (_ ∧ _ ∧ _))

instance (rbsp : List UInt8) : Decidable (RespectsDpb rbsp) :=
  match h : Rbsp.hevcSpsSets.parse (bytesBits rbsp) with
  | .error _ => isFalse fun ⟨_, _, _, hparse, _⟩ => by rw [h] at hparse; cases hparse
  | .ok x => decidable_of_iff
      (∀ pics ∈ derivedPics RefPics.none x.1.2, pics.Within x.1.1.highestDecPicBuffering)
      ⟨fun hwithin => ⟨_, _, _, h, hwithin⟩, fun ⟨_, _, _, hparse, hwithin⟩ => by
        rw [h] at hparse; cases hparse; exact hwithin⟩

theorem RefPics.within_zero (pics : RefPics) : pics.Within 0 ↔ pics = RefPics.none := by
  obtain ⟨negative, positive⟩ := pics
  simp only [Within, numDeltaPocs, Nat.le_zero, Nat.add_eq_zero_iff, List.length_eq_zero_iff,
    RefPics.none, mk.injEq]
  exact ⟨fun h => h.2.2, fun h => ⟨h.1, h.2, h⟩⟩

/-- After the rewrite there is room for no picture. -/
theorem highestDecPicBuffering_lowLatency (head : HevcSpsHead) :
    head.lowLatency.highestDecPicBuffering = 0 := by
  rw [HevcSpsHead.highestDecPicBuffering, HevcSpsHead.lowLatency, List.getLast?_map]
  cases head.dpb.getLast? <;> rfl

/-! ### Empty sets -/

/-- No set of several has a picture. -/
def NoPictures (sets : List HevcStRefPicSet) : Prop :=
  ∀ pics ∈ derivedPics RefPics.none sets, pics = RefPics.none

theorem noPictures_nil : NoPictures [] := by
  intro pics hpics
  cases hpics

theorem noPictures_cons {x : HevcStRefPicSet} {sets : List HevcStRefPicSet} :
    NoPictures (x :: sets) ↔ x.pics RefPics.none = RefPics.none ∧ NoPictures sets := by
  rw [NoPictures, derivedPics, List.forall_mem_cons]
  refine and_congr_right fun hx => ?_
  rw [hx, NoPictures]

/-- With no picture before it a set counts right. -/
theorem noZeroDelta_none (x : HevcStRefPicSet) : x.NoZeroDelta RefPics.none := by
  cases x with
  | explicit num_neg num_pos negative positive => exact trivial
  | inter sign abs entries =>
      intro e he huse hzero
      have hfst : e.1 = 0 := by
        have hmem := List.of_mem_zip (a := e.1) (b := e.2) he
        simpa [RefPics.candidates, RefPics.none] using hmem.1
      rw [hfst, zero_add] at hzero
      exact deltaRps_ne_zero sign abs hzero

section Walk

variable [BuildProfile]

theorem count_empty {x : HevcStRefPicSet} (hx : x.Coded 0)
    (hempty : x.pics RefPics.none = RefPics.none) : addU32 0 x.counted = .ok 0 := by
  have hright := (@count_eq_iff _ RefPics.none x hx (by decide)).2
  rw [hempty] at hright
  exact hright ⟨noZeroDelta_none x, by decide⟩

omit [BuildProfile] in
/-- Behind the bits of a set the others are read with what it leaves. -/
theorem refPicSets_parse_spells {σ : Type} {num : σ → ℕ} {next : σ → HevcStRefPicSet → σ} {k i : ℕ}
    {prev : σ} {x : HevcStRefPicSet} {cs : List Bool}
    (hx : (Rbsp.stRefPicSet i (num prev)).Spells cs x) {bs s : List Bool} {sets : List HevcStRefPicSet} :
    (Rbsp.refPicSets num next (k + 1) i prev).parse (cs ++ bs) = .ok (sets, s) ↔
      ∃ xs, (Rbsp.refPicSets num next k (i + 1) (next prev x)).parse bs = .ok (xs, s) ∧
        x :: xs = sets := by
  rw [Rbsp.refPicSets, hx.parse_bind, parse_bind_pure]

/-- **The sets the walk has copied.**  Behind empty sets the walk and the standard read alike; so the
copy has a picture exactly when the input has one. -/
theorem copyHevcStRefPicSets_noPictures {k i : ℕ} {ns : List ℕ} (hns : i ≠ 0 → ns[i - 1]? = some 0)
    (hlen : ns.length = i) {r r' : BitReader} {w w' : BitWriter} {sets : List HevcStRefPicSet}
    {ts : List Token} {s : List Bool}
    (hread : (Rbsp.refPicSets RefPics.numDeltaPocs (fun prev x => x.pics prev) k i RefPics.none).run
      r.rest = .ok (sets, ts, s))
    (hrun : (Walk.copyHevcStRefPicSets k i ns).run r w = .ok ((), r', w')) :
    ∃ bs, w' = w.push bs ∧ ∀ s', (∃ sets' s'',
      (Rbsp.refPicSets RefPics.numDeltaPocs (fun prev x => x.pics prev) k i RefPics.none).parse
        (bs ++ s') = .ok (sets', s'') ∧ NoPictures sets') ↔ NoPictures sets := by
  induction k generalizing i ns r w sets ts with
  | zero =>
      cases hread
      cases hrun
      exact ⟨[], rfl, fun s' => iff_of_true ⟨[], s', rfl, noPictures_nil⟩ noPictures_nil⟩
  | succ k ih =>
      obtain ⟨x, ts₁, s₁, us₁, hx, h₁, -⟩ := run_bind_eq_ok.1 hread
      obtain ⟨xs, ts₂, s₂, us₂, hxs, h₂, -⟩ := run_bind_eq_ok.1 h₁
      cases h₂
      obtain ⟨⟨c, r₁, w₁⟩, hfst, hmore⟩ := Outcome.bind_eq_ok.1 hrun
      obtain ⟨hskip, hturn⟩ := copyHevcStRefPicSet_turn hns (by decide) hx w
      -- the copy begins with the same set
      have hcopy := fun bs sets' s'' => @refPicSets_parse_spells _ RefPics.numDeltaPocs
        (fun prev x => x.pics prev) k _ _ _ _ (spells_of_run hx) bs s'' sets'
      cases hcount : addU32 0 x.counted with
      | error e =>
          rw [hcount] at hturn
          rw [hturn] at hfst
          cases hfst
      | ok n =>
          rw [hcount] at hturn
          rw [hturn] at hfst
          cases hfst
          obtain ⟨bs₂, r₂, hpush⟩ := (verbatim_copyHevcStRefPicSets k (i + 1) (ns ++ [c])).of_run hmore
          by_cases hempty : x.pics RefPics.none = RefPics.none
          · rw [count_empty (stRefPicSet_coded hx) hempty] at hcount
            cases hcount
            obtain ⟨hlen', hlast⟩ := counts_concat hlen 0
            simp only [hempty] at hxs hcopy
            obtain ⟨bs, hw, hiff⟩ := ih (fun _ => hlast) hlen' (hskip ▸ hxs) hmore
            refine ⟨tokenBits ts₁ ++ bs, by rw [hw, BitWriter.push_push], fun s' => ?_⟩
            rw [noPictures_cons, ← hiff s', List.append_assoc]
            constructor
            · rintro ⟨sets', s'', hsets, hno⟩
              obtain ⟨xs', hxs', rfl⟩ := (hcopy _ _ _).1 hsets
              exact ⟨hempty, xs', s'', hxs', (noPictures_cons.1 hno).2⟩
            · rintro ⟨-, xs', s'', hxs', hno⟩
              exact ⟨x :: xs', s'', (hcopy _ _ _).2 ⟨xs', hxs', rfl⟩, noPictures_cons.2 ⟨hempty, hno⟩⟩
          · refine ⟨tokenBits ts₁ ++ bs₂, by rw [hpush, BitWriter.push_push], fun s' => ?_⟩
            refine iff_of_false ?_ fun hno => hempty (noPictures_cons.1 hno).1
            rintro ⟨sets', s'', hsets, hno⟩
            rw [List.append_assoc] at hsets
            obtain ⟨xs', -, rfl⟩ := (hcopy _ _ _).1 hsets
            exact hempty (noPictures_cons.1 hno).1

/-! ### The full walk, cut at the sets -/

/-- `patch_hevc_sps_full` from the coding block sizes to the number of reference picture sets. -/
def Walk.copyHevcCodingTools : Walk ℕ := do
  let _ ← Walk.copyUe
  let _ ← Walk.copyUe
  let _ ← Walk.copyUe
  let _ ← Walk.copyUe
  let _ ← Walk.copyUe
  let _ ← Walk.copyUe
  let scaling_list_enabled ← Walk.copyBits 1
  Walk.onlyIf (scaling_list_enabled = 1) do
    let sps_scaling_list_data_present ← Walk.copyBits 1
    Walk.refuseIf (sps_scaling_list_data_present = 1)
  let _ ← Walk.copyBits 1
  let _ ← Walk.copyBits 1
  let _ ← Walk.flagged Walk.copyHevcPcm
  Walk.copyUe

/-- `patch_hevc_sps_full` behind the reference picture sets. -/
def Walk.patchHevcSpsEnd (log2_max_poc : ℕ) : Walk Unit := do
  let _ ← Walk.flagged (Walk.copyHevcLongTerm log2_max_poc)
  let _ ← Walk.copyBits 1
  let _ ← Walk.copyBits 1
  Walk.patchHevcVui
  Walk.copyZeroFlag

theorem patchHevcSpsTail_eq (log2_max_poc : ℕ) : Walk.patchHevcSpsTail log2_max_poc = (do
    let num_short_term_ref_pic_sets ← Walk.copyHevcCodingTools
    let num_delta_pocs ← Walk.ofOutcome (withCapacityU32 num_short_term_ref_pic_sets)
    Walk.copyHevcStRefPicSets num_short_term_ref_pic_sets 0 num_delta_pocs
    Walk.patchHevcSpsEnd log2_max_poc) := by
  simp only [Walk.copyHevcCodingTools, bind_assoc]
  rfl

theorem rewrites_hevcCodingTools : Rewrites Walk.copyHevcCodingTools Rbsp.hevcCodingTools
    Rbsp.hevcCodingTools id id := by
  refine .ue fun min_luma_coding_block _ => ?_
  refine .ue fun diff_luma_coding_block _ => ?_
  refine .ue fun min_luma_transform_block _ => ?_
  refine .ue fun diff_luma_transform_block _ => ?_
  refine .ue fun max_depth_inter _ => ?_
  refine .ue fun max_depth_intra _ => ?_
  refine .bits (by decide) fun scaling_list_enabled _ => ?_
  refine .copy (.onlyIf Iff.rfl fun _ => copies_hevcScalingList) fun _ => ?_
  refine .bits (by decide) fun amp_enabled _ => ?_
  refine .bits (by decide) fun sample_adaptive_offset_enabled _ => ?_
  refine .flagged copies_hevcPcm fun pcm => ?_
  exact rewrites_ue

omit [BuildProfile] in
theorem hevcCodingTools_lt {n : ℕ} (h : Rbsp.hevcCodingTools.Yields n) : n < 2 ^ 32 := by
  have hue : Rbsp.ue.Ensures fun n => n < 2 ^ 32 := by
    intro n hn
    have hlt := ue_yields hn
    omega
  revert n
  show Rbsp.hevcCodingTools.Ensures fun n => n < 2 ^ 32
  iterate 11 refine .bind fun _ _ => ?_
  exact hue

/-- **The output after its head.**  It begins with the head rewritten, the coding tools and the sets
as they were copied. -/
theorem patchHevcSpsFull_sets {rbsp out : List UInt8} (h : patchHevcSpsFull rbsp = .ok out)
    {head : HevcSpsHead} {n : ℕ} {ts₁ ts₂ : List Token} {s₁ s₂ : List Bool}
    (hhead : Rbsp.hevcSpsHead.run (bytesBits rbsp) = .ok (head, ts₁, s₁))
    (htools : Rbsp.hevcCodingTools.run s₁ = .ok (n, ts₂, s₂)) :
    ∃ bs₁ bs₂ r r' w', Rbsp.hevcSpsHead.Spells bs₁ head.lowLatency ∧
      Rbsp.hevcCodingTools.Spells bs₂ n ∧ r.rest = s₂ ∧
      (Walk.copyHevcStRefPicSets n 0 []).run r (BitWriter.new.push (bs₁ ++ bs₂)) =
        .ok ((), r', w') ∧ w'.bits <+: bytesBits out := by
  obtain ⟨r₀, bs, s', hp, hout, -⟩ := Walk.rewriteRbsp_eq_ok h
  obtain ⟨⟨_, r₁, w₁⟩, hhead', hrest⟩ := Outcome.bind_eq_ok.1 hp
  obtain ⟨⟨log2_max_poc, r₂, w₂⟩, hlift, htail⟩ := Outcome.bind_eq_ok.1 hrest
  obtain ⟨_, -, hret⟩ := Outcome.bind_eq_ok.1 hlift
  cases hret
  simp only [patchHevcSpsTail_eq] at htail
  obtain ⟨⟨n', r₃, w₃⟩, htools', htail⟩ := Outcome.bind_eq_ok.1 htail
  obtain ⟨⟨num_delta_pocs, r', w'⟩, hcapacity, hsets⟩ := Outcome.bind_eq_ok.1 htail
  obtain ⟨⟨_, r₄, w₄⟩, hsets, hend⟩ := Outcome.bind_eq_ok.1 hsets
  -- the head
  obtain ⟨_, _, _, bs₁, hq₁, hbs₁, -, rfl, rfl⟩ := rewrites_hevcSpsHead.of_run hhead'
  rw [BitReader.rest_new, hhead] at hq₁
  cases hq₁
  have hskip : ((BitReader.new rbsp).skip (tokenBits ts₁).length).rest = s₁ :=
    BitReader.rest_skip_of_append (Rbsp.hevcSpsHead.consumes hhead)
  -- the coding tools
  obtain ⟨_, _, _, bs₂, hq₂, hbs₂, hn, rfl, rfl⟩ := rewrites_hevcCodingTools.of_run htools'
  rw [hskip, htools] at hq₂
  cases hq₂
  cases hn
  obtain ⟨_, hempty, hret⟩ := Outcome.bind_eq_ok.1 hcapacity
  cases (withCapacityU32_of_lt (hevcCodingTools_lt ⟨_, _, _, htools⟩)).symm.trans hempty
  cases hret
  rw [BitWriter.push_push] at hsets
  refine ⟨bs₁, bs₂, _, r₄, w₄, hbs₁, hbs₂, ?_, hsets, ?_⟩
  · apply BitReader.rest_skip_of_append
    rw [hskip, Rbsp.hevcCodingTools.consumes htools]
  · obtain ⟨k, cs, -, hw⟩ := Walk.onward _ hend
    have hbits := congrArg BitWriter.bits hw
    rw [BitWriter.bits_push, BitWriter.bits_push, BitWriter.bits_new, List.nil_append] at hbits
    rw [hout, hbits, List.append_assoc]
    exact List.prefix_append _ _

/-- **What the rewrite does to the bound.**  The output of the full walk respects it exactly when no
reference picture set of the input has a picture, whatever buffer the input had. -/
theorem patchHevcSpsFull_respects_iff {rbsp out : List UInt8} (h : patchHevcSpsFull rbsp = .ok out)
    {head : HevcSpsHead} {sets : List HevcStRefPicSet} {s : List Bool}
    (hread : Rbsp.hevcSpsSets.parse (bytesBits rbsp) = .ok ((head, sets), s)) :
    RespectsDpb out ↔ ∀ pics ∈ derivedPics RefPics.none sets, pics = RefPics.none := by
  obtain ⟨ts, hrun⟩ := run_of_parse hread
  obtain ⟨_, ts₁, s₁, us₁, hhead, h₁, -⟩ := run_bind_eq_ok.1 hrun
  obtain ⟨n, ts₂, s₂, us₂, htools, h₂, -⟩ := run_bind_eq_ok.1 h₁
  obtain ⟨_, ts₃, s₃, us₃, hsets, h₃, -⟩ := run_bind_eq_ok.1 h₂
  cases h₃
  obtain ⟨bs₁, bs₂, r, r', w', hbs₁, hbs₂, rfl, hcopy, cs, hout⟩ :=
    patchHevcSpsFull_sets h hhead htools
  obtain ⟨bs₃, rfl, hiff⟩ :=
    copyHevcStRefPicSets_noPictures (fun h => absurd rfl h) rfl hsets hcopy
  rw [BitWriter.bits_push, BitWriter.bits_push, BitWriter.bits_new, List.nil_append] at hout
  -- the output is read as its three parts
  have hparse : ∀ head' sets' s', Rbsp.hevcSpsSets.parse (bytesBits out) =
      .ok ((head', sets'), s') ↔ head' = head.lowLatency ∧
        (Rbsp.stRefPicSets n).parse (bs₃ ++ cs) = .ok (sets', s') := by
    intro head' sets' s'
    rw [← hout, List.append_assoc, List.append_assoc, Rbsp.hevcSpsSets, hbs₁.parse_bind,
      hbs₂.parse_bind, parse_bind_pure]
    constructor
    · rintro ⟨sets', hsets', heq⟩
      cases heq
      exact ⟨rfl, hsets'⟩
    · rintro ⟨rfl, hsets'⟩
      exact ⟨sets', hsets', rfl⟩
  refine Iff.trans ?_ (hiff cs)
  simp only [RespectsDpb, hparse, NoPictures]
  constructor
  · rintro ⟨_, sets', s', ⟨rfl, hsets'⟩, hwithin⟩
    rw [highestDecPicBuffering_lowLatency] at hwithin
    exact ⟨sets', s', hsets', fun pics hpics => pics.within_zero.1 (hwithin pics hpics)⟩
  · rintro ⟨sets', s', hsets', hnone⟩
    refine ⟨_, sets', s', ⟨rfl, hsets'⟩, fun pics hpics => ?_⟩
    rw [highestDecPicBuffering_lowLatency]
    exact pics.within_zero.2 (hnone pics hpics)

end Walk

/-- An SPS with an empty set and a set predicted from it that has no picture either. -/
theorem patchHevcSpsFull_respects_iff_main :
    letI : BuildProfile := ⟨true⟩
    let rbsp : List UInt8 := [1, 4, 8, 0, 0, 0, 0, 0, 0, 0, 0, 0, 93, 160, 32, 129, 5, 150, 190, 77,
      159, 70, 64]
    let out : List UInt8 := [1, 4, 8, 0, 0, 0, 0, 0, 0, 0, 0, 0, 93, 160, 32, 129, 5, 151, 249, 54,
      125, 28, 220, 4, 4, 4, 2]
    patchHevcSpsFull rbsp = .ok out ∧ RespectsDpb out := by
  let _ : BuildProfile := ⟨true⟩
  intro rbsp out
  have hpatch : patchHevcSpsFull rbsp = .ok out := by decide +kernel
  have hempty : (Rbsp.hevcSpsSets.parse (bytesBits rbsp)).map
      (fun x => derivedPics RefPics.none x.1.2) = .ok [RefPics.none, RefPics.none] := by
    decide +kernel
  refine ⟨hpatch, ?_⟩
  cases hread : Rbsp.hevcSpsSets.parse (bytesBits rbsp) with
  | error e =>
      rw [hread] at hempty
      cases hempty
  | ok x =>
      rw [hread] at hempty
      have hpics : derivedPics RefPics.none x.1.2 = [RefPics.none, RefPics.none] :=
        Except.ok.inj hempty
      refine (patchHevcSpsFull_respects_iff hpatch hread).2 ?_
      rw [hpics]
      decide

/-- An SPS with room for one picture and a set of one picture. -/
theorem patchHevcSpsFull_one_picture :
    letI : BuildProfile := ⟨true⟩
    let rbsp : List UInt8 := [1, 4, 8, 0, 0, 0, 0, 0, 0, 0, 0, 0, 93, 160, 32, 129, 5, 150, 190, 77,
      146, 236, 128]
    let out : List UInt8 := [1, 4, 8, 0, 0, 0, 0, 0, 0, 0, 0, 0, 93, 160, 32, 129, 5, 151, 249, 54, 75,
      185, 184, 8, 8, 8, 4]
    patchHevcSpsFull rbsp = .ok out ∧ RespectsDpb rbsp ∧ ¬ RespectsDpb out := by
  decide +kernel

end Penflow
