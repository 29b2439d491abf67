import Penflow.Encoder.Quiet

/-!
# Which SPSs the patcher can panic on

In a debug build the HEVC walk has three places where the numbers of an SPS can take it out of range:
the count of a reference picture set, the width of a long-term entry, and the read of such an entry.
`HevcSpsInRange` says that an SPS reaches none of them.  It is stated on the syntax, with the counts as
plain numbers; `patchHevcSpsFull_panic_iff` says that these places are all there are.
-/

namespace Penflow

open AnnexB BitString BitSyntax SyntaxReader

/-! ### Numbers in range -/

namespace Rbsp

/-- `k` reference picture sets, each read with the number its predecessor counts. -/
def countedSets (k : ℕ) : Rbsp (List HevcStRefPicSet) := refPicSets id (fun _ x => x.counted) k 0 0

end Rbsp

/-- The numbers of an HEVC SPS stay in the ranges of their variables, as far as the SPS can be read:
the count of each reference picture set is a `u32`; the width of the long-term entries is one, and
where there are entries it is at most 32 bits. -/
structure HevcSpsInRange (rbsp : List UInt8) : Prop where
  counts : ∀ {head s₁ n s₂ k sets s₃}, Rbsp.hevcSpsHead.parse (bytesBits rbsp) = .ok (head, s₁) →
    Rbsp.hevcCodingTools.parse s₁ = .ok (n, s₂) → k ≤ n →
    (Rbsp.countedSets k).parse s₂ = .ok (sets, s₃) → ∀ x ∈ sets, x.counted < 2 ^ 32
  widths : ∀ {head s₁ n s₂ sets s₃ num s₄},
    Rbsp.hevcSpsHead.parse (bytesBits rbsp) = .ok (head, s₁) →
    Rbsp.hevcCodingTools.parse s₁ = .ok (n, s₂) →
    (Rbsp.countedSets n).parse s₂ = .ok (sets, s₃) →
    (Rbsp.flagged Rbsp.ue).parse s₃ = .ok (some num, s₄) →
    head.lead.log2_max_pic_order_cnt_lsb_minus4 + 4 < 2 ^ 32 ∧
      (num = 0 ∨ head.lead.log2_max_pic_order_cnt_lsb_minus4 + 4 ≤ 32)

/-! ### A debug build -/

section Checked

variable [BuildProfile] (hchecked : BuildProfile.overflowChecks = true)

include hchecked

theorem addU32_of_ge {a b : ℕ} (h : 2 ^ 32 ≤ a + b) : addU32 a b = .error .panic := by
  rw [addU32, if_neg (Nat.not_lt.2 h), overflow, if_pos hchecked]

theorem debugAssert_of_not {c : Prop} [Decidable c] (h : ¬ c) : debugAssert c = .error .panic := by
  rw [debugAssert, hchecked, decide_eq_false h]
  rfl

/-! ### The reference picture sets -/

omit [BuildProfile] hchecked in
theorem refPicSets_parse_succ {σ : Type} {num : σ → ℕ} {next : σ → HevcStRefPicSet → σ} {k i : ℕ}
    {prev : σ} {s s' : List Bool} {sets : List HevcStRefPicSet} :
    (Rbsp.refPicSets num next (k + 1) i prev).parse s = .ok (sets, s') ↔
      ∃ x s₁ xs, (Rbsp.stRefPicSet i (num prev)).parse s = .ok (x, s₁) ∧
        (Rbsp.refPicSets num next k (i + 1) (next prev x)).parse s₁ = .ok (xs, s') ∧
        x :: xs = sets := by
  rw [Rbsp.refPicSets, parse_bind_eq_ok]
  simp only [parse_bind_pure]
  constructor
  · rintro ⟨x, s₁, hx, xs, hxs, hsets⟩
    exact ⟨x, s₁, xs, hx, hxs, hsets⟩
  · rintro ⟨x, s₁, xs, hx, hxs, hsets⟩
    exact ⟨x, s₁, hx, xs, hxs, hsets⟩

omit hchecked in
/-- One turn of the walk's reader: the set, its count, the other sets. -/
theorem hevcStRefPicSets_succ {k i n : ℕ} {ns : List ℕ} (hns : i ≠ 0 → ns[i - 1]? = some n)
    (hn : n < 2 ^ 32) : Rbsp.hevcStRefPicSets (k + 1) i ns = (do
      let x ← Rbsp.stRefPicSet i n
      let m ← compute (addU32 0 x.counted)
      let sets ← Rbsp.hevcStRefPicSets k (i + 1) (ns ++ [m])
      pure (x :: sets)) := by
  rw [Rbsp.hevcStRefPicSets, hevcStRefPicSet_eq hns hn]
  simp only [bind_assoc, pure_bind]

/-- **Where the walk panics in the sets.**  Behind the first set whose count is out of range. -/
theorem hevcStRefPicSets_panic_iff {k i n : ℕ} {ns : List ℕ} (hns : i ≠ 0 → ns[i - 1]? = some n)
    (hlen : ns.length = i) (hn : n < 2 ^ 32) {s : List Bool} :
    (Rbsp.hevcStRefPicSets k i ns).parse s = .error .panic ↔
      ∃ j ≤ k, ∃ sets s', (Rbsp.refPicSets id (fun _ x => x.counted) j i n).parse s =
        .ok (sets, s') ∧ ∃ x ∈ sets, 2 ^ 32 ≤ x.counted := by
  induction k generalizing i n ns s with
  | zero =>
      refine iff_of_false (fun h => by cases h) ?_
      rintro ⟨j, hj, sets, s', hsets, x, hx, -⟩
      obtain rfl : j = 0 := Nat.le_zero.1 hj
      cases hsets
      cases hx
  | succ k ih =>
      rw [hevcStRefPicSets_succ hns hn, (quiet_stRefPicSet i n).parse_bind_eq_error]
      have hcont : ∀ (x : HevcStRefPicSet) (s₁ : List Bool), (do
          let m ← compute (addU32 0 x.counted)
          let sets ← Rbsp.hevcStRefPicSets k (i + 1) (ns ++ [m])
          pure (x :: sets)).parse s₁ = .error .panic ↔ 2 ^ 32 ≤ x.counted ∨
            ∃ j ≤ k, ∃ sets s', (Rbsp.refPicSets id (fun _ x => x.counted) j (i + 1) x.counted).parse
              s₁ = .ok (sets, s') ∧ ∃ y ∈ sets, 2 ^ 32 ≤ y.counted := by
        intro x s₁
        rcases Nat.lt_or_ge x.counted (2 ^ 32) with hlt | hge
        · obtain ⟨hlen', hlast⟩ := counts_concat hlen x.counted
          rw [addU32_of_lt (by omega), Nat.zero_add, compute_ok,
            parse_bind_eq_error_of_avoids fun sets => quiet_pure _, ih (fun _ => hlast) hlen' hlt]
          exact (or_iff_right (Nat.not_le.2 hlt)).symm
        · rw [addU32_of_ge hchecked (by omega)]
          exact iff_of_true rfl (.inl hge)
      simp only [hcont]
      constructor
      · rintro ⟨x, s₁, hx, hbig | ⟨j, hj, xs, s', hxs, y, hy, hbig⟩⟩
        · exact ⟨1, by omega, [x], s₁, refPicSets_parse_succ.2 ⟨x, s₁, [], hx, rfl, rfl⟩, x,
            List.mem_cons_self, hbig⟩
        · exact ⟨j + 1, by omega, x :: xs, s', refPicSets_parse_succ.2 ⟨x, s₁, xs, hx, hxs, rfl⟩, y,
            List.mem_cons_of_mem x hy, hbig⟩
      · rintro ⟨j, hj, sets, s', hsets, y, hy, hbig⟩
        cases j with
        | zero =>
            cases hsets
            cases hy
        | succ j =>
            obtain ⟨x, s₁, xs, hx, hxs, rfl⟩ := refPicSets_parse_succ.1 hsets
            refine ⟨x, s₁, hx, ?_⟩
            rcases List.mem_cons.1 hy with rfl | hy
            · exact .inl hbig
            · exact .inr ⟨j, by omega, xs, s', hxs, y, hy, hbig⟩

/-- The sets the walk reads are those that are there, none of them with a count out of range. -/
theorem hevcStRefPicSets_ok_iff {k i n : ℕ} {ns : List ℕ} (hns : i ≠ 0 → ns[i - 1]? = some n)
    (hlen : ns.length = i) (hn : n < 2 ^ 32) {s s' : List Bool} {sets : List HevcStRefPicSet} :
    (Rbsp.hevcStRefPicSets k i ns).parse s = .ok (sets, s') ↔
      (Rbsp.refPicSets id (fun _ x => x.counted) k i n).parse s = .ok (sets, s') ∧
        ∀ x ∈ sets, x.counted < 2 ^ 32 := by
  induction k generalizing i n ns s sets with
  | zero =>
      refine (and_iff_left_of_imp fun h => ?_).symm
      cases h
      exact fun x hx => by cases hx
  | succ k ih =>
      have hcont : ∀ (x : HevcStRefPicSet) (s₁ : List Bool), (do
          let m ← compute (addU32 0 x.counted)
          let sets ← Rbsp.hevcStRefPicSets k (i + 1) (ns ++ [m])
          pure (x :: sets)).parse s₁ = .ok (sets, s') ↔ x.counted < 2 ^ 32 ∧
            ∃ xs, (Rbsp.refPicSets id (fun _ x => x.counted) k (i + 1) x.counted).parse s₁ =
              .ok (xs, s') ∧ (∀ y ∈ xs, y.counted < 2 ^ 32) ∧ x :: xs = sets := by
        intro x s₁
        rcases Nat.lt_or_ge x.counted (2 ^ 32) with hlt | hge
        · obtain ⟨hlen', hlast⟩ := counts_concat hlen x.counted
          rw [addU32_of_lt (by omega), Nat.zero_add, compute_ok, parse_bind_pure]
          simp only [ih (fun _ => hlast) hlen' hlt, and_assoc, hlt, true_and]
        · rw [addU32_of_ge hchecked (by omega)]
          refine iff_of_false (fun h => by cases h) ?_
          rintro ⟨hlt, -⟩
          omega
      rw [hevcStRefPicSets_succ hns hn, parse_bind_eq_ok, refPicSets_parse_succ]
      simp only [hcont]
      constructor
      · rintro ⟨x, s₁, hx, hlt, xs, hxs, hsmall, rfl⟩
        exact ⟨⟨x, s₁, xs, hx, hxs, rfl⟩, List.forall_mem_cons.2 ⟨hlt, hsmall⟩⟩
      · rintro ⟨⟨x, s₁, xs, hx, hxs, rfl⟩, hsmall⟩
        rw [List.forall_mem_cons] at hsmall
        exact ⟨x, s₁, hx, hsmall.1, xs, hxs, hsmall.2, rfl⟩

/-! ### The long-term entries -/

omit hchecked in
/-- The long-term table with the checks of a debug build. -/
def Rbsp.hevcLongTermChecked (log2_max_poc : ℕ) : Rbsp Unit := do
  let num_long_term ← Rbsp.ue
  let lt_lsb_bits ← compute (addU32 log2_max_poc 4)
  let _ ← times num_long_term do
    compute (debugAssert (lt_lsb_bits ≤ 32))
    let _ ← Rbsp.u lt_lsb_bits
    Rbsp.u 1
  pure ()

omit [BuildProfile] hchecked in
theorem follows_compute {γ : Type} {x : Outcome γ} {p : γ → Walk Unit} {q : γ → Rbsp Unit}
    (h : ∀ v, Follows (p v) (q v) fun _ => ()) :
    Follows (Walk.ofOutcome x >>= p) (compute x >>= q) fun _ => () := by
  cases x with
  | error e => exact fun _ _ => rfl
  | ok v =>
      rw [compute_ok]
      exact h v

/-- A copy of `n` bits, whatever `n` is. -/
theorem follows_copyBits {n : ℕ} {p : ℕ → Walk Unit} {β : Type} {q : ℕ → Rbsp β}
    (h : n ≤ 32 → ∀ v, Follows (p v) (q v) fun _ => ()) :
    Follows (Walk.copyBits n >>= p) (do compute (debugAssert (n ≤ 32)); let v ← Rbsp.u n; q v)
      fun _ => () := by
  by_cases hn : n ≤ 32
  · rw [debugAssert_of hn, compute_ok]
    exact Follows.bind (rewrites_bits hn) fun v _ => h hn v
  · intro r w
    rw [debugAssert_of_not hchecked hn]
    show (Walk.copyBits n >>= p).run r w = .error .panic
    rw [Walk.run_bind]
    have hread : (Walk.copyBits n).run r w = .error .panic := by
      show ((debugAssert (n ≤ 32) >>= fun _ => BitReader.readBitsLoop n 0 r) >>= _) >>= _ = _
      rw [debugAssert_of_not hchecked hn]
      rfl
    rw [hread]
    rfl

omit [BuildProfile] hchecked in
theorem Follows.times {p : Walk Unit} {β : Type} {q : Rbsp β} (h : Follows p q fun _ => ()) (n : ℕ) :
    Follows (Walk.times n p) (SyntaxReader.times n q) fun _ => () := by
  induction n with
  | zero => exact fun r w => ⟨[], trivial, rfl⟩
  | succ n ih =>
      exact Follows.bind h fun b _ => Walks.last ih (fun _ => rfl) fun _ _ hbs => hbs

theorem follows_hevcLongTerm (log2_max_poc : ℕ) : Follows (Walk.copyHevcLongTerm log2_max_poc)
    (Rbsp.hevcLongTermChecked log2_max_poc) fun _ => () := by
  refine Follows.bind rewrites_ue fun num_long_term _ => follows_compute fun lt_lsb_bits => ?_
  have hentry : Follows (do
      let _ ← Walk.copyBits lt_lsb_bits
      let _ ← Walk.copyBits 1
      pure ()) (do
      compute (debugAssert (lt_lsb_bits ≤ 32))
      let _ ← Rbsp.u lt_lsb_bits
      Rbsp.u 1) fun _ => () :=
    follows_copyBits hchecked fun _ _ => (copies_bits (by decide)).follows
  exact Walks.last (hentry.times _) (fun _ => rfl) fun _ _ hbs => hbs

/-- The table panics when the width is no `u32`, or one no read takes and there is an entry. -/
theorem hevcLongTermChecked_panic_iff (log2_max_poc : ℕ) (s : List Bool) :
    (Rbsp.hevcLongTermChecked log2_max_poc).parse s = .error .panic ↔
      ∃ num s', Rbsp.ue.parse s = .ok (num, s') ∧
        ¬ (log2_max_poc + 4 < 2 ^ 32 ∧ (num = 0 ∨ log2_max_poc + 4 ≤ 32)) := by
  rw [Rbsp.hevcLongTermChecked, quiet_ue.parse_bind_eq_error]
  refine exists_congr fun num => exists_congr fun s' => and_congr_right fun _ => ?_
  rcases Nat.lt_or_ge (log2_max_poc + 4) (2 ^ 32) with hlt | hge
  · rw [addU32_of_lt hlt, compute_ok, parse_bind_eq_error_of_avoids fun _ => quiet_pure ()]
    rcases Nat.lt_or_ge 32 (log2_max_poc + 4) with hwide | hfits
    · cases num with
      | zero => exact iff_of_false (fun h => by cases h) fun h => h ⟨hlt, .inl rfl⟩
      | succ num =>
          rw [debugAssert_of_not hchecked (Nat.not_le.2 hwide)]
          exact iff_of_true rfl (by omega)
    · rw [debugAssert_of hfits]
      refine iff_of_false ?_ (by omega)
      exact Quiet.times ((quiet_pure ()).bind fun _ => .u fun _ => quiet_u 1) num s'
  · rw [addU32_of_ge hchecked hge]
    exact iff_of_true rfl (by omega)

/-! ### The full walk -/

omit hchecked in
/-- What the full walk reads behind the head, with the checks of a debug build. -/
def Rbsp.hevcSpsTailChecked (log2_max_poc : ℕ) : Rbsp Unit := do
  let num_short_term_ref_pic_sets ← Rbsp.hevcCodingTools
  let _ ← Rbsp.hevcStRefPicSets num_short_term_ref_pic_sets 0 []
  let _ ← Rbsp.flagged (Rbsp.hevcLongTermChecked log2_max_poc)
  let _ ← Rbsp.u 1
  let _ ← Rbsp.u 1
  let _ ← Rbsp.flagged Rbsp.hevcVui
  Rbsp.zeroFlag

omit hchecked in
theorem Follows.flagged {p : Walk Unit} {β : Type} {q : Rbsp β} (h : Follows p q fun _ => ())
    {p₂ : Walk Unit} {q₂ : Rbsp Unit} (h₂ : Follows p₂ q₂ fun _ => ()) :
    Follows (Walk.flagged p >>= fun _ => p₂) (Rbsp.flagged q >>= fun _ => q₂) fun _ => () := by
  rw [Walk.flagged, Rbsp.flagged, SyntaxReader.flagged, bind_assoc, bind_assoc]
  refine Follows.bind (rewrites_bits (by decide)) fun flag _ => ?_
  rw [bind_assoc]
  by_cases hone : flag = 1
  · simp only [Walk.onlyIf, id, if_pos hone, given_pos hone, map_eq_pure_bind, bind_assoc, pure_bind]
    exact Follows.bind h fun b _ => h₂
  · simp only [Walk.onlyIf, id, if_neg hone, given_neg hone, pure_bind]
    exact h₂

theorem follows_patchHevcSpsTail (log2_max_poc : ℕ) : Follows (Walk.patchHevcSpsTail log2_max_poc)
    (Rbsp.hevcSpsTailChecked log2_max_poc) fun _ => () := by
  rw [patchHevcSpsTail_eq]
  refine Follows.bind rewrites_hevcCodingTools fun n hn => ?_
  refine Walks.compute (withCapacityU32_of_lt (hevcCodingTools_lt hn)) ?_
  refine Follows.bind (copies_hevcStRefPicSets n 0 []) fun sets _ => ?_
  refine (follows_hevcLongTerm hchecked log2_max_poc).flagged ?_
  refine Follows.bind (rewrites_bits (by decide)) fun temporal_mvp_enabled _ => ?_
  refine Follows.bind (rewrites_bits (by decide)) fun strong_intra_smoothing_enabled _ => ?_
  refine Follows.bind (Rewrites.always rewrites_hevcVui writes_minimalHevcVui) fun vui _ => ?_
  exact copies_zeroFlag.follows

omit [BuildProfile] hchecked in
/-- A long-term table and its number stand behind the same flag. -/
theorem flagged_parse_cond {β : Type} {q : Rbsp β} {s : List Bool} {P : ℕ → Prop}
    (hq : ∀ s', q.parse s' = .error .panic ↔ ∃ num s'', Rbsp.ue.parse s' = .ok (num, s'') ∧ P num) :
    (Rbsp.flagged q).parse s = .error .panic ↔
      ∃ num s'', (Rbsp.flagged Rbsp.ue).parse s = .ok (some num, s'') ∧ P num := by
  rw [Rbsp.flagged, flagged_parse_eq_error (by decide)]
  simp only [Rbsp.flagged, flagged_parse_eq_some, hq]
  constructor
  · rintro ⟨s', hflag, num, s'', hnum, hP⟩
    exact ⟨num, s'', ⟨s', hflag, hnum⟩, hP⟩
  · rintro ⟨num, s'', ⟨s', hflag, hnum⟩, hP⟩
    exact ⟨s', hflag, num, s'', hnum, hP⟩

/-- Where the walk panics behind the head. -/
theorem hevcSpsTailChecked_panic_iff (log2_max_poc : ℕ) (s : List Bool) :
    (Rbsp.hevcSpsTailChecked log2_max_poc).parse s = .error .panic ↔
      ∃ n s₂, Rbsp.hevcCodingTools.parse s = .ok (n, s₂) ∧
        ((∃ k ≤ n, ∃ sets s₃, (Rbsp.countedSets k).parse s₂ = .ok (sets, s₃) ∧
            ∃ x ∈ sets, 2 ^ 32 ≤ x.counted) ∨
          ∃ sets s₃, ((Rbsp.countedSets n).parse s₂ = .ok (sets, s₃) ∧
              ∀ x ∈ sets, x.counted < 2 ^ 32) ∧
            ∃ num s₄, (Rbsp.flagged Rbsp.ue).parse s₃ = .ok (some num, s₄) ∧
              ¬ (log2_max_poc + 4 < 2 ^ 32 ∧ (num = 0 ∨ log2_max_poc + 4 ≤ 32))) := by
  have hend : Quiet (do
      let _ ← Rbsp.u 1
      let _ ← Rbsp.u 1
      let _ ← Rbsp.flagged Rbsp.hevcVui
      Rbsp.zeroFlag) := .u fun _ => .u fun _ => .flagged quiet_hevcVui fun _ => quiet_zeroFlag
  rw [Rbsp.hevcSpsTailChecked, quiet_hevcCodingTools.parse_bind_eq_error]
  refine exists_congr fun n => exists_congr fun s₂ => and_congr_right fun _ => ?_
  have hzero : 0 < 2 ^ 32 := by decide
  rw [parse_bind_eq_error, hevcStRefPicSets_panic_iff hchecked (fun h => absurd rfl h) rfl hzero]
  refine or_congr Iff.rfl ?_
  refine exists_congr fun sets => exists_congr fun s₃ => and_congr ?_ ?_
  · exact hevcStRefPicSets_ok_iff hchecked (fun h => absurd rfl h) rfl hzero
  · rw [parse_bind_eq_error_of_avoids fun _ => hend]
    exact flagged_parse_cond (hevcLongTermChecked_panic_iff hchecked log2_max_poc)

/-- Behind a head it can read, the full walk ends as its reader does. -/
theorem patchHevcSpsFull_error_iff {rbsp : List UInt8} {head : HevcSpsHead} {s : List Bool}
    (h : Rbsp.hevcSpsHead.parse (bytesBits rbsp) = .ok (head, s)) {e : Fault} :
    patchHevcSpsFull rbsp = .error e ↔
      (Rbsp.hevcSpsTailChecked head.lead.log2_max_pic_order_cnt_lsb_minus4).parse s = .error e := by
  obtain ⟨ts, hrun⟩ := run_of_parse h
  obtain ⟨s₀, us, hlead⟩ := hevcSpsHead_lead hrun
  have hhead := rewrites_hevcSpsHead (.new rbsp) .new
  rw [BitReader.rest_new, hrun] at hhead
  obtain ⟨bs, -, hhead⟩ := hhead
  have hrest : ((BitReader.new rbsp).skip (tokenBits ts).length).rest = s :=
    BitReader.rest_skip_of_append (Rbsp.hevcSpsHead.consumes hrun)
  rw [patchHevcSpsFull, Walk.rewriteRbsp_error_iff, Walk.run_bind, hhead]
  show (Walk.ofOutcome (walkHevcSpsDpbLog2MaxPoc rbsp) >>= Walk.patchHevcSpsTail).run _ _ = _ ↔ _
  rw [walkHevcSpsDpbLog2MaxPoc_eq hlead, ← hrest]
  exact (follows_patchHevcSpsTail hchecked _).error_iff

omit hchecked in
/-- In front of a head they cannot read, both walks end with the error of the head. -/
theorem patchHevcSps_head_error {rbsp : List UInt8} {e : Fault}
    (h : Rbsp.hevcSpsHead.parse (bytesBits rbsp) = .error e) :
    patchHevcSpsFull rbsp = .error e ∧ patchHevcSpsDpbOnly rbsp = .error e := by
  have hhead : Walk.walkHevcSpsThroughDpb.run (.new rbsp) .new = .error e :=
    rewrites_hevcSpsHead.error_iff.2 h
  constructor
  · rw [patchHevcSpsFull, Walk.rewriteRbsp_error_iff, Walk.run_bind, hhead]
    rfl
  · rw [patchHevcSpsDpbOnly, Walk.patchHevcSpsDpb, Walk.run_bind, hhead]
    rfl

omit hchecked in
/-- Behind a head it can read, the fallback returns. -/
theorem patchHevcSpsDpbOnly_head_ok {rbsp : List UInt8} {x : HevcSpsHead × List Bool}
    (h : Rbsp.hevcSpsHead.parse (bytesBits rbsp) = .ok x) :
    ∃ out, patchHevcSpsDpbOnly rbsp = .ok out := by
  have hhead : ∃ x, Walk.walkHevcSpsThroughDpb.run (.new rbsp) .new = .ok x :=
    rewrites_hevcSpsHead.ok_iff.2 ⟨_, _, h⟩
  obtain ⟨⟨_, r, w⟩, hhead⟩ := hhead
  refine ⟨(w.push r.rest).intoBytes, ?_⟩
  rw [patchHevcSpsDpbOnly, Walk.patchHevcSpsDpb, Walk.run_bind, hhead]
  show (Walk.copyRemainingBits.run r w >>= _) = _
  rw [copyRemainingBits_run]
  rfl

/-- **Where the full walk panics.**  It does so exactly where a number of the SPS is out of range. -/
theorem patchHevcSpsFull_panic_iff (rbsp : List UInt8) :
    patchHevcSpsFull rbsp = .error .panic ↔ ¬ HevcSpsInRange rbsp := by
  constructor
  · intro hpanic hrange
    cases hhead : Rbsp.hevcSpsHead.parse (bytesBits rbsp) with
    | error e =>
        have hfull := (patchHevcSps_head_error hhead).1
        rw [hpanic] at hfull
        cases hfull
        exact quiet_hevcSpsHead _ hhead
    | ok x =>
        have htail := (patchHevcSpsFull_error_iff hchecked hhead).1 hpanic
        obtain ⟨n, s₂, htools, hsets⟩ := (hevcSpsTailChecked_panic_iff hchecked _ _).1 htail
        rcases hsets with ⟨k, hk, sets, s₃, hsets, y, hy, hbig⟩ |
          ⟨sets, s₃, ⟨hsets, -⟩, num, s₄, hnum, hwide⟩
        · exact absurd (hrange.counts hhead htools hk hsets y hy) (Nat.not_lt.2 hbig)
        · exact hwide (hrange.widths hhead htools hsets hnum)
  · intro hnot
    by_contra hpanic
    refine hnot ⟨?_, ?_⟩
    · intro head s₁ n s₂ k sets s₃ hhead htools hk hsets y hy
      by_contra hbig
      refine hpanic ((patchHevcSpsFull_error_iff hchecked hhead).2 ?_)
      exact (hevcSpsTailChecked_panic_iff hchecked _ _).2
        ⟨n, s₂, htools, .inl ⟨k, hk, sets, s₃, hsets, y, hy, Nat.not_lt.1 hbig⟩⟩
    · intro head s₁ n s₂ sets s₃ num s₄ hhead htools hsets hnum
      by_contra hwide
      refine hpanic ((patchHevcSpsFull_error_iff hchecked hhead).2 ?_)
      refine (hevcSpsTailChecked_panic_iff hchecked _ _).2 ⟨n, s₂, htools, ?_⟩
      by_cases hsmall : ∀ y ∈ sets, y.counted < 2 ^ 32
      · exact .inr ⟨sets, s₃, ⟨hsets, hsmall⟩, num, s₄, hnum, hwide⟩
      · -- then the sets are where it panics
        simp only [not_forall, Nat.not_lt] at hsmall
        obtain ⟨y, hy, hbig⟩ := hsmall
        exact .inl ⟨n, Nat.le_refl n, sets, s₃, hsets, y, hy, hbig⟩

/-! ### One SPS -/

/-- What an SPS patcher that handles every SPS does: it does not panic, it comes to the fallback
wherever the full walk does not return, and it returns wherever the head can be walked. -/
structure HandlesSps (rbsp : List UInt8) : Prop where
  no_panic : patchHevcSpsRbsp rbsp ≠ .error .panic
  fallback : (∀ out, patchHevcSpsFull rbsp ≠ .ok out) → patchHevcSpsRbsp rbsp = patchHevcSpsDpbOnly rbsp
  returns : (∃ out, patchHevcSpsRbsp rbsp = .ok out) ↔
    ∃ x, Walk.walkHevcSpsThroughDpb.run (.new rbsp) .new = .ok x

omit hchecked in
/-- The fallback handles every SPS. -/
theorem patchHevcSpsDpbOnly_total (rbsp : List UInt8) :
    patchHevcSpsDpbOnly rbsp ≠ .error .panic ∧ ((∃ out, patchHevcSpsDpbOnly rbsp = .ok out) ↔
      ∃ x, Walk.walkHevcSpsThroughDpb.run (.new rbsp) .new = .ok x) := by
  rw [rewrites_hevcSpsHead.ok_iff, BitReader.rest_new]
  cases hhead : Rbsp.hevcSpsHead.parse (bytesBits rbsp) with
  | error e =>
      rw [(patchHevcSps_head_error hhead).2]
      refine ⟨fun hpanic => ?_, iff_of_false ?_ ?_⟩
      · cases hpanic
        exact quiet_hevcSpsHead _ hhead
      · rintro ⟨out, hout⟩
        cases hout
      · rintro ⟨head, s, hok⟩
        cases hok
  | ok x =>
      obtain ⟨out, hout⟩ := patchHevcSpsDpbOnly_head_ok hhead
      rw [hout]
      refine ⟨fun hpanic => ?_, iff_of_true ⟨out, rfl⟩ ⟨x.1, x.2, rfl⟩⟩
      cases hpanic

omit hchecked in
/-- Where the full walk returns, the head can be walked. -/
theorem walkHevcSpsThroughDpb_of_full {rbsp out : List UInt8} (h : patchHevcSpsFull rbsp = .ok out) :
    ∃ x, Walk.walkHevcSpsThroughDpb.run (.new rbsp) .new = .ok x := by
  obtain ⟨r, bs, s, hp, -⟩ := Walk.rewriteRbsp_eq_ok h
  obtain ⟨x, hhead, -⟩ := Outcome.bind_eq_ok.1 hp
  exact ⟨x, hhead⟩

/-- **An SPS is handled exactly when its numbers are in range.** -/
theorem handlesSps_iff (rbsp : List UInt8) : HandlesSps rbsp ↔ HevcSpsInRange rbsp := by
  have hrange : HevcSpsInRange rbsp ↔ patchHevcSpsFull rbsp ≠ .error .panic := by
    rw [ne_eq, patchHevcSpsFull_panic_iff hchecked, not_not]
  rw [hrange]
  constructor
  · intro h hpanic
    refine h.no_panic ?_
    rw [patchHevcSpsRbsp, hpanic]
  · intro hne
    obtain ⟨hsafe, hreturns⟩ := patchHevcSpsDpbOnly_total rbsp
    cases hfull : patchHevcSpsFull rbsp with
    | ok v =>
        have hrbsp : patchHevcSpsRbsp rbsp = .ok v := by rw [patchHevcSpsRbsp, hfull]
        refine ⟨fun hpanic => ?_, fun h => absurd hfull (h v), ?_⟩
        · rw [hrbsp] at hpanic
          cases hpanic
        · exact iff_of_true ⟨v, hrbsp⟩ (walkHevcSpsThroughDpb_of_full hfull)
    | error e =>
        cases e with
        | panic => exact absurd hfull hne
        | err e =>
            have hrbsp : patchHevcSpsRbsp rbsp = patchHevcSpsDpbOnly rbsp := by
              rw [patchHevcSpsRbsp, hfull]
            exact ⟨hrbsp ▸ hsafe, fun _ => hrbsp, hrbsp ▸ hreturns⟩

/-! ### Packets -/

omit [BuildProfile] hchecked in
/-- The SPSs the patcher comes to are in range: those in front of the first NAL without a header and of
the first SPS whose head it cannot walk. -/
def HevcPacketInRange : List (UInt8 × List UInt8) → Prop
  | [] => True
  | (nal_type, payload) :: nals =>
    Codec.hevc.headerLen ≤ payload.length →
      if nal_type = Codec.hevc.spsType then
        HevcSpsInRange (rbspUnescape (payload.drop Codec.hevc.headerLen)) ∧
          ((∃ x, Rbsp.hevcSpsHead.parse
            (bytesBits (rbspUnescape (payload.drop Codec.hevc.headerLen))) = .ok x) →
              HevcPacketInRange nals)
      else HevcPacketInRange nals

omit hchecked in
theorem patchUnits_cons_panic {codec : Codec} {u : Nal} {us : List Nal}
    (hlen : codec.headerLen ≤ u.payload.length) : patchUnits codec (u :: us) = .error .panic ↔
      patchPayload codec u.payload = .error .panic ∨
        (∃ q, patchPayload codec u.payload = .ok q) ∧ patchUnits codec us = .error .panic := by
  rw [patchUnits, if_neg (Nat.not_lt.2 hlen), Outcome.bind_eq_error]
  refine or_congr Iff.rfl ?_
  rw [← exists_and_right]
  refine exists_congr fun q => and_congr_right fun _ => ?_
  rw [Outcome.bind_eq_error]
  refine or_iff_left ?_
  rintro ⟨rest, -, hret⟩
  cases hret

omit hchecked in
/-- An SPS payload ends as the patcher of its body does. -/
theorem patchPayload_sps {codec : Codec} {payload : List UInt8}
    (hsps : payload.head?.map codec.nalType = some codec.spsType) :
    (patchPayload codec payload = .error .panic ↔
        patchSpsRbsp codec (rbspUnescape (payload.drop codec.headerLen)) = .error .panic) ∧
      ((∃ q, patchPayload codec payload = .ok q) ↔
        ∃ out, patchSpsRbsp codec (rbspUnescape (payload.drop codec.headerLen)) = .ok out) := by
  rw [patchPayload, if_neg (not_not.2 hsps)]
  cases patchSpsRbsp codec (rbspUnescape (payload.drop codec.headerLen)) with
  | error e =>
      refine ⟨?_, iff_of_false ?_ ?_⟩
      · constructor <;> intro h <;> cases h <;> rfl
      · rintro ⟨q, hq⟩
        cases hq
      · rintro ⟨out, hout⟩
        cases hout
  | ok out =>
      refine ⟨iff_of_false (fun h => ?_) (fun h => ?_), iff_of_true ⟨_, rfl⟩ ⟨out, rfl⟩⟩
      · cases h
      · cases h

omit hchecked in
/-- Other payloads are passed on. -/
theorem patchPayload_other {codec : Codec} {payload : List UInt8}
    (hsps : payload.head?.map codec.nalType ≠ some codec.spsType) :
    patchPayload codec payload = .ok payload := if_pos hsps

omit hchecked in
/-- The H.264 patcher never panics. -/
theorem patchUnits_h264_ne_panic (us : List Nal) : patchUnits .h264 us ≠ .error .panic := by
  have hsafe : ∀ rbsp, patchH264SpsRbsp rbsp ≠ .error .panic := by
    intro rbsp hpanic
    have hwalk := Walk.rewriteRbsp_error_iff.1 hpanic
    exact quiet_h264Sps _ (rewrites_h264Sps.error_iff.1 hwalk)
  induction us with
  | nil => exact fun h => by cases h
  | cons u us ih =>
      intro hpanic
      by_cases hshort : u.payload.length < Codec.h264.headerLen
      · rw [patchUnits, if_pos hshort] at hpanic
        cases hpanic
      · rcases (patchUnits_cons_panic (Nat.not_lt.1 hshort)).1 hpanic with hpayload | ⟨-, hrest⟩
        · by_cases hsps : u.payload.head?.map Codec.h264.nalType = some Codec.h264.spsType
          · exact hsafe _ ((patchPayload_sps hsps).1.1 hpayload)
          · rw [patchPayload_other hsps] at hpayload
            cases hpayload
        · exact ih hrest

/-- **Where the HEVC patcher panics in a packet.** -/
theorem patchUnits_hevc_panic_iff (us : List Nal) : patchUnits .hevc us = .error .panic ↔
    ¬ HevcPacketInRange (unitNals Codec.hevc.nalType us) := by
  induction us with
  | nil => exact iff_of_false (fun h => by cases h) (not_not.2 trivial)
  | cons u us ih =>
      by_cases hshort : u.payload.length < Codec.hevc.headerLen
      · rw [patchUnits, if_pos hshort, unitNals]
        refine iff_of_false (fun h => by cases h) (not_not.2 ?_)
        cases hhead : (join u.payload us).head? with
        | none =>
            obtain rfl := join_head_eq_none hhead
            exact trivial
        | some b => exact fun hlen => absurd hshort (Nat.not_lt.2 hlen)
      · have hlen := Nat.not_lt.1 hshort
        have hpos : 0 < u.payload.length := Nat.lt_of_lt_of_le (by decide) hlen
        obtain ⟨b, t, hb⟩ := List.exists_cons_of_length_pos hpos
        have hhead : u.payload.head? = some b := by rw [hb]; rfl
        rw [patchUnits_cons_panic hlen, unitNals, join_head us hhead, HevcPacketInRange, ih]
        by_cases hsps : Codec.hevc.nalType b = Codec.hevc.spsType
        · have hmap : u.payload.head?.map Codec.hevc.nalType = some Codec.hevc.spsType := by
            rw [hhead, Option.map_some, hsps]
          obtain ⟨hpanic, hok⟩ := patchPayload_sps hmap
          let rbsp := rbspUnescape (u.payload.drop Codec.hevc.headerLen)
          have hhandles := handlesSps_iff hchecked rbsp
          rw [hpanic, hok, if_pos hsps]
          show patchHevcSpsRbsp rbsp = .error .panic ∨ (∃ out, patchHevcSpsRbsp rbsp = .ok out) ∧
            ¬ HevcPacketInRange (unitNals Codec.hevc.nalType us) ↔
            ¬ (Codec.hevc.headerLen ≤ u.payload.length → HevcSpsInRange rbsp ∧ _)
          rw [imp_iff_right hlen]
          by_cases hrange : HevcSpsInRange rbsp
          · have h := hhandles.2 hrange
            rw [or_iff_right h.no_panic, h.returns, rewrites_hevcSpsHead.ok_iff, BitReader.rest_new,
              and_iff_right hrange, Classical.not_imp, Prod.exists]
          · refine iff_of_true (.inl ?_) fun h => hrange h.1
            have hfull := (patchHevcSpsFull_panic_iff hchecked rbsp).2 hrange
            rw [patchHevcSpsRbsp, hfull]
        · have hmap : u.payload.head?.map Codec.hevc.nalType ≠ some Codec.hevc.spsType := by
            rw [hhead, Option.map_some]
            exact fun h => hsps (Option.some.inj h)
          rw [patchPayload_other hmap, if_neg hsps, imp_iff_right hlen]
          refine (or_iff_right ?_).trans (and_iff_right ⟨_, rfl⟩)
          intro h
          cases h

/-- A packet is patched without a panic exactly when the SPSs the patcher comes to are in range. -/
theorem patchPacket_ne_panic_iff (codec : Codec) (bytes : List UInt8) :
    patchPacketForLowLatencyDpb codec bytes ≠ .error .panic ↔
      (codec = .hevc → HevcPacketInRange (reportedNals splitHevcNals bytes)) := by
  obtain ⟨p, us, htight, rfl⟩ := exists_tight bytes
  have hpacket : patchPacketForLowLatencyDpb codec (join p us) = .error .panic ↔
      patchUnits codec us = .error .panic := by
    rw [patchPacket_join codec htight]
    cases patchUnits codec us with
    | error e => constructor <;> intro h <;> cases h <;> rfl
    | ok us' => exact iff_of_false (fun h => by cases h) fun h => by cases h
  rw [ne_eq, hpacket]
  cases codec with
  | h264 => exact iff_of_true (patchUnits_h264_ne_panic us) fun h => by cases h
  | hevc =>
      rw [patchUnits_hevc_panic_iff hchecked, not_not, imp_iff_right rfl]
      have hnals : reportedNals splitHevcNals (join p us) = unitNals Codec.hevc.nalType us :=
        reportedNals_join hevcNalType htight
      rw [hnals]

end Checked

/-- **When the patcher is total.**  In a debug build it patches a packet without a panic exactly when the
HEVC SPSs it comes to are in range, and it handles an HEVC SPS exactly when that SPS is. -/
theorem patch_total_iff (codec : Codec) (bytes rbsp : List UInt8) :
    letI : BuildProfile := ⟨true⟩
    (patchPacketForLowLatencyDpb codec bytes ≠ .error .panic ↔
      (codec = .hevc → HevcPacketInRange (reportedNals splitHevcNals bytes))) ∧
    (HandlesSps rbsp ↔ HevcSpsInRange rbsp) := by
  let _ : BuildProfile := ⟨true⟩
  constructor
  · exact patchPacket_ne_panic_iff rfl codec bytes
  · exact handlesSps_iff rfl rbsp

/-- One long-term entry, 33 bits wide: the fallback would patch this SPS, and the patcher panics. -/
theorem patchPacket_wide_long_term :
    letI : BuildProfile := ⟨true⟩
    let rbsp : List UInt8 := [1, 4, 8, 0, 0, 0, 0, 0, 0, 0, 0, 0, 93, 160, 32, 129, 5, 135, 171, 228,
      219, 64, 0, 0, 0, 14, 64]
    let packet : List UInt8 := [0, 0, 1, 66, 1] ++ rbspEscape rbsp
    patchPacketForLowLatencyDpb .hevc packet = .error .panic ∧
      patchHevcSpsRbsp rbsp = .error .panic ∧
      patchHevcSpsDpbOnly rbsp = .ok [1, 4, 8, 0, 0, 0, 0, 0, 0, 0, 0, 0, 93, 160, 32, 129, 5, 135,
        191, 147, 109, 0, 0, 0, 0, 57, 0] := by
  decide +kernel

end Penflow
