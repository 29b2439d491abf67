import Penflow.Encoder.Idempotent
import Mathlib.Data.List.Infix

/-!
# Short-term reference picture sets

A predicted set codes one entry for each delta POC of the set before it, and one more; so how many
bits a set takes depends on the number of delta POCs of its predecessor.  The standard derives that
number from the delta POCs themselves and leaves out a difference of zero (`RefPics.predict`).  The
walk counts the entries whose `use_delta_flag` is 1.

`numDeltaPocs_iff` says when the two agree: exactly when no such entry comes out as zero.
-/

namespace Penflow

open BitString BitSyntax SyntaxReader

/-! ### The derivation -/

/-- The pictures of a set: `DeltaPocS0` and `DeltaPocS1`. -/
structure RefPics where
  negative : List ℤ
  positive : List ℤ
  deriving DecidableEq

namespace RefPics

def none : RefPics := ⟨[], []⟩

/-- `NumDeltaPocs` -/
def numDeltaPocs (pics : RefPics) : ℕ := pics.negative.length + pics.positive.length

/-- The delta POCs an entry of a predicted set can refer to, the current picture last. -/
def candidates (ref : RefPics) : List ℤ := ref.negative ++ ref.positive ++ [0]

/-- What an entry contributes to one side of a predicted set. -/
def shifted (delta_rps : ℤ) (side : ℤ → Bool) (x : ℤ × Bool) : Option ℤ :=
  if x.2 && side (x.1 + delta_rps) then some (x.1 + delta_rps) else Option.none

/-- The pictures of a set predicted from `ref`.  Each side takes the other side of `ref` backwards, the
current picture, and its own side of `ref`. -/
def predict (ref : RefPics) (delta_rps : ℤ) (use_delta : List Bool) : RefPics :=
  let coded := ref.candidates.zip use_delta
  let s0 := coded.take ref.negative.length
  let s1 := (coded.drop ref.negative.length).take ref.positive.length
  let last := (coded.drop ref.negative.length).drop ref.positive.length
  { negative := (s1.reverse ++ last ++ s0).filterMap (shifted delta_rps (· < 0))
    positive := (s0.reverse ++ last ++ s1).filterMap (shifted delta_rps (0 < ·)) }

end RefPics

/-- The delta POCs of one side of an explicit set, each coded as its distance from the one before. -/
def deltaPocsFrom (sign prev : ℤ) : List (ℕ × ℕ) → List ℤ
  | [] => []
  | e :: entries =>
    let poc := prev + sign * (e.1 + 1)
    poc :: deltaPocsFrom sign poc entries

/-- `use_delta_flag`, inferred to be 1 where it is not coded. -/
def usesDelta (e : ℕ × Option ℕ) : Bool := e.2.getD 1 = 1

/-- `deltaRps` -/
def deltaRps (delta_rps_sign abs_delta_rps_minus1 : ℕ) : ℤ :=
  (1 - 2 * delta_rps_sign) * (abs_delta_rps_minus1 + 1)

namespace HevcStRefPicSet

/-- The pictures of a set, given those of the set before it. -/
def pics (prev : RefPics) : HevcStRefPicSet → RefPics
  | .inter sign abs entries => prev.predict (deltaRps sign abs) (entries.map usesDelta)
  | .explicit _ _ negative positive => ⟨deltaPocsFrom (-1) 0 negative, deltaPocsFrom 1 0 positive⟩

/-- The number the walk counts: every entry that uses its delta. -/
def counted : HevcStRefPicSet → ℕ
  | .inter _ _ entries => entries.countP usesDelta
  | .explicit num_negative_pics num_positive_pics _ _ => num_negative_pics + num_positive_pics

/-- No entry that uses its delta comes out as zero. -/
def NoZeroDelta (prev : RefPics) : HevcStRefPicSet → Prop
  | .inter sign abs entries =>
    ∀ x ∈ prev.candidates.zip (entries.map usesDelta), x.2 = true → x.1 + deltaRps sign abs ≠ 0
  | .explicit .. => True

/-- A set has as many entries as it was coded with, after a predecessor with `n` delta POCs. -/
def Coded (n : ℕ) : HevcStRefPicSet → Prop
  | .inter _ _ entries => entries.length = n + 1
  | .explicit num_negative_pics num_positive_pics negative positive =>
    negative.length = num_negative_pics ∧ positive.length = num_positive_pics

end HevcStRefPicSet

/-- In no set of several an entry comes out as zero, and none has too many pictures for a `u32`. -/
def NoZeroDeltas (prev : RefPics) : List HevcStRefPicSet → Prop
  | [] => True
  | x :: sets => (x.NoZeroDelta prev ∧ (x.pics prev).numDeltaPocs < 2 ^ 32) ∧
      NoZeroDeltas (x.pics prev) sets

/-- The pictures of each of several sets, the first behind `prev`. -/
def derivedPics (prev : RefPics) : List HevcStRefPicSet → List RefPics
  | [] => []
  | x :: sets => x.pics prev :: derivedPics (x.pics prev) sets

/-! ### Counting -/

theorem deltaPocsFrom_length (sign prev : ℤ) (entries : List (ℕ × ℕ)) :
    (deltaPocsFrom sign prev entries).length = entries.length := by
  induction entries generalizing prev with
  | nil => rfl
  | cons e entries ih => rw [deltaPocsFrom, List.length_cons, List.length_cons, ih]

theorem deltaRps_ne_zero (sign abs : ℕ) : deltaRps sign abs ≠ 0 := by
  refine mul_ne_zero ?_ ?_ <;> omega

namespace RefPics

@[simp] theorem candidates_length (ref : RefPics) : ref.candidates.length = ref.numDeltaPocs + 1 := by
  simp only [candidates, numDeltaPocs, List.length_append, List.length_singleton]

theorem shifted_isSome (delta_rps : ℤ) (side : ℤ → Bool) (x : ℤ × Bool) :
    (shifted delta_rps side x).isSome = (x.2 && side (x.1 + delta_rps)) := by
  rw [shifted]
  cases x.2 && side (x.1 + delta_rps) <;> rfl

/-- A used delta falls on one side unless it is zero. -/
theorem countP_sides (delta_rps : ℤ) (coded : List (ℤ × Bool)) :
    (coded.filterMap (shifted delta_rps (· < 0))).length +
      (coded.filterMap (shifted delta_rps (0 < ·))).length =
      coded.countP fun x => x.2 && x.1 + delta_rps ≠ 0 := by
  simp only [List.length_filterMap_eq_countP, shifted_isSome]
  induction coded with
  | nil => rfl
  | cons x coded ih =>
      rw [List.countP_cons, List.countP_cons, List.countP_cons, ← ih]
      cases x.2 with
      | false => simp
      | true =>
          simp only [Bool.true_and, decide_eq_true_eq]
          split_ifs <;> omega

/-- **The number of delta POCs of a predicted set.** -/
theorem predict_numDeltaPocs (ref : RefPics) (delta_rps : ℤ) (use_delta : List Bool) :
    (ref.predict delta_rps use_delta).numDeltaPocs =
      (ref.candidates.zip use_delta).countP fun x => x.2 && x.1 + delta_rps ≠ 0 := by
  have hsplit : ref.candidates.zip use_delta = (ref.candidates.zip use_delta).take ref.negative.length ++
      (((ref.candidates.zip use_delta).drop ref.negative.length).take ref.positive.length ++
        ((ref.candidates.zip use_delta).drop ref.negative.length).drop ref.positive.length) := by
    rw [List.take_append_drop, List.take_append_drop]
  rw [← countP_sides]
  conv_rhs => rw [hsplit]
  simp only [predict, numDeltaPocs, List.filterMap_append, List.filterMap_reverse, List.length_append,
    List.length_reverse]
  omega

end RefPics

namespace HevcStRefPicSet

/-- The entries of a predicted set, each with what it refers to. -/
theorem counted_inter {prev : RefPics} {sign abs : ℕ} {entries : List (ℕ × Option ℕ)}
    (hlen : entries.length = prev.numDeltaPocs + 1) :
    counted (.inter sign abs entries) =
      (prev.candidates.zip (entries.map usesDelta)).countP fun x => x.2 := by
  have hsnd : (prev.candidates.zip (entries.map usesDelta)).map Prod.snd = entries.map usesDelta := by
    refine List.map_snd_zip ?_
    rw [List.length_map, hlen, RefPics.candidates_length]
  have hcount : ((prev.candidates.zip (entries.map usesDelta)).map Prod.snd).countP id =
      (entries.map usesDelta).countP id := by
    rw [hsnd]
  rw [List.countP_map, List.countP_map] at hcount
  exact hcount.symm

/-- **When the count is right.**  A set counts as many delta POCs as it has exactly when none of its
entries comes out as zero. -/
theorem counted_eq_iff {prev : RefPics} {x : HevcStRefPicSet} (hx : x.Coded prev.numDeltaPocs) :
    (x.pics prev).numDeltaPocs ≤ x.counted ∧
      ((x.pics prev).numDeltaPocs = x.counted ↔ x.NoZeroDelta prev) := by
  cases x with
  | explicit num_neg num_pos negative positive =>
      obtain ⟨rfl, rfl⟩ := hx
      have hnum : (deltaPocsFrom (-1) 0 negative).length + (deltaPocsFrom 1 0 positive).length =
          negative.length + positive.length := by
        rw [deltaPocsFrom_length, deltaPocsFrom_length]
      exact ⟨Nat.le_of_eq hnum, iff_of_true hnum trivial⟩
  | inter sign abs entries =>
      rw [pics, RefPics.predict_numDeltaPocs, counted_inter hx, NoZeroDelta]
      generalize prev.candidates.zip (entries.map usesDelta) = coded
      -- the used entries are those that are not zero and those that are
      have hsplit := List.countP_eq_countP_filter_add coded (fun x => x.2)
        fun x => x.1 + deltaRps sign abs ≠ 0
      rw [List.countP_filter, List.countP_filter] at hsplit
      rw [hsplit]
      refine ⟨Nat.le_add_right _ _, ?_⟩
      rw [eq_comm, Nat.add_eq_left, List.countP_eq_zero]
      refine forall₂_congr fun x _ => ?_
      cases x.2 <;> simp

/-- A predicted set whose every entry is used has a delta POC: the entry for the current picture. -/
theorem numDeltaPocs_pos {prev : RefPics} {sign abs : ℕ} {entries : List (ℕ × Option ℕ)}
    (hlen : entries.length = prev.numDeltaPocs + 1)
    (hall : entries.countP usesDelta = entries.length) :
    0 < (pics prev (.inter sign abs entries)).numDeltaPocs := by
  rw [pics, RefPics.predict_numDeltaPocs, List.countP_pos_iff]
  obtain ⟨e, he⟩ : ∃ e, entries.getLast? = some e := by
    cases entries with
    | nil => cases hlen
    | cons e entries => exact ⟨_, rfl⟩
  obtain ⟨init, rfl⟩ := List.getLast?_eq_some_iff.1 he
  have huse : usesDelta e = true :=
    List.countP_eq_length.1 hall e (List.mem_append_right init List.mem_cons_self)
  have hzip : prev.candidates.zip ((init ++ [e]).map usesDelta) =
      (prev.negative ++ prev.positive).zip (init.map usesDelta) ++ [(0, true)] := by
    rw [List.map_append, RefPics.candidates, List.zip_append]
    · rw [List.map_singleton, huse]
      rfl
    · rw [List.length_append, List.length_singleton, RefPics.numDeltaPocs] at hlen
      rw [List.length_append, List.length_map]
      omega
  refine ⟨(0, true), ?_, ?_⟩
  · rw [hzip]
    exact List.mem_append_right _ List.mem_cons_self
  · simpa using deltaRps_ne_zero sign abs

end HevcStRefPicSet

/-! ### Reading the sets -/

namespace Rbsp

/-- One entry of a predicted set. -/
def interEntry : Rbsp (ℕ × Option ℕ) := do
  let used_by_curr_pic_flag ← u 1
  let use_delta_flag ← given (used_by_curr_pic_flag = 0) (u 1)
  pure (used_by_curr_pic_flag, use_delta_flag)

/-- `st_ref_pic_set(st_rps_idx)`, after a set with `n_dp` delta POCs. -/
def stRefPicSet (st_rps_idx n_dp : ℕ) : Rbsp HevcStRefPicSet := do
  let inter_ref_pic_set_prediction_flag ← (if st_rps_idx ≠ 0 then u 1 else pure 0)
  if inter_ref_pic_set_prediction_flag = 1 then
    let delta_rps_sign ← u 1
    let abs_delta_rps_minus1 ← ue
    let entries ← times (n_dp + 1) interEntry
    pure (.inter delta_rps_sign abs_delta_rps_minus1 entries)
  else
    let num_negative_pics ← ue
    let num_positive_pics ← ue
    let negative ← times num_negative_pics hevcExplicitEntry
    let positive ← times num_positive_pics hevcExplicitEntry
    pure (.explicit num_negative_pics num_positive_pics negative positive)

/-- `k` sets from `st_rps_idx` on.  What is kept of the sets before (`prev`) says how many delta POCs
the last of them has. -/
def refPicSets {σ : Type} (num : σ → ℕ) (next : σ → HevcStRefPicSet → σ) :
    ℕ → ℕ → σ → Rbsp (List HevcStRefPicSet)
  | 0, _, _ => pure []
  | k + 1, st_rps_idx, prev => do
    let x ← stRefPicSet st_rps_idx (num prev)
    let sets ← refPicSets num next k (st_rps_idx + 1) (next prev x)
    pure (x :: sets)

/-- The sets as the standard reads them. -/
def stRefPicSets (k : ℕ) : Rbsp (List HevcStRefPicSet) :=
  refPicSets RefPics.numDeltaPocs (fun prev x => x.pics prev) k 0 RefPics.none

end Rbsp

theorem times_length {ε α : Type} {q : SyntaxReader ε α} {n : ℕ} {s s' : List Bool} {as : List α}
    {ts : List Token} (h : (times n q).run s = .ok (as, ts, s')) : as.length = n := by
  induction n generalizing s as ts with
  | zero =>
      cases h
      rfl
  | succ n ih =>
      obtain ⟨a, ts₁, s₁, us, -, h₁, rfl⟩ := run_bind_eq_ok.1 h
      obtain ⟨as', ts₂, s₂, vs, has, hret, rfl⟩ := run_bind_eq_ok.1 h₁
      cases hret
      rw [List.length_cons, ih has]

theorem stRefPicSet_coded {i n : ℕ} {s s' : List Bool} {x : HevcStRefPicSet} {ts : List Token}
    (h : (Rbsp.stRefPicSet i n).run s = .ok (x, ts, s')) : x.Coded n := by
  obtain ⟨flag, ts₁, s₁, us₁, -, h₁, -⟩ := run_bind_eq_ok.1 h
  by_cases hone : flag = 1
  · rw [if_pos hone] at h₁
    obtain ⟨sign, -, s₂, us₂, -, h₂, -⟩ := run_bind_eq_ok.1 h₁
    obtain ⟨abs, -, s₃, us₃, -, h₃, -⟩ := run_bind_eq_ok.1 h₂
    obtain ⟨entries, ts₄, s₄, us₄, hentries, h₄, -⟩ := run_bind_eq_ok.1 h₃
    cases h₄
    exact times_length hentries
  · rw [if_neg hone] at h₁
    obtain ⟨num_neg, -, s₂, us₂, -, h₂, -⟩ := run_bind_eq_ok.1 h₁
    obtain ⟨num_pos, -, s₃, us₃, -, h₃, -⟩ := run_bind_eq_ok.1 h₂
    obtain ⟨negative, ts₄, s₄, us₄, hnegative, h₄, -⟩ := run_bind_eq_ok.1 h₃
    obtain ⟨positive, ts₅, s₅, us₅, hpositive, h₅, -⟩ := run_bind_eq_ok.1 h₄
    cases h₅
    exact ⟨times_length hnegative, times_length hpositive⟩

/-! ### The walk's reader -/

section Walk

variable [BuildProfile]

omit [BuildProfile] in
theorem compute_ok {ε α β : Type} (a : α) (f : α → SyntaxReader ε β) :
    (compute (.ok a) >>= f) = f a := pure_bind a f

theorem hevcInterEntry_eq (n : ℕ) : Rbsp.hevcInterEntry n = (do
    let e ← Rbsp.interEntry
    let m ← compute (if usesDelta e then addU32 n 1 else .ok n)
    pure (e, m)) := by
  rw [Rbsp.hevcInterEntry, Rbsp.interEntry]
  simp only [bind_assoc]
  congr 1
  funext used
  by_cases hused : used = 0
  · rw [if_pos hused, given_pos hused, map_eq_pure_bind]
    simp only [bind_assoc, pure_bind]
    congr 1
    funext use
    by_cases huse : use = 1
    · subst huse
      rw [if_pos rfl]
      rfl
    · rw [if_neg huse]
      have : usesDelta (used, some use) = false := by simpa [usesDelta] using huse
      rw [this]
      rfl
  · rw [if_neg hused, given_neg hused, pure_bind, pure_bind]
    rfl

/-- **The counting loop.**  A counter that cannot pass its range before the last entry counts the used
entries. -/
theorem hevcInterEntries_eq (k n : ℕ) (hn : n < 2 ^ 32) (hk : n + k ≤ 2 ^ 32) :
    Rbsp.hevcInterEntries k n = (do
      let entries ← times k Rbsp.interEntry
      let m ← compute (addU32 n (entries.countP usesDelta))
      pure (entries, m)) := by
  induction k generalizing n with
  | zero =>
      show pure ([], n) = (pure [] >>= _)
      rw [pure_bind, List.countP_nil, addU32_of_lt (by omega), compute_ok]
      rfl
  | succ k ih =>
      rw [Rbsp.hevcInterEntries, hevcInterEntry_eq, times]
      simp only [bind_assoc, pure_bind]
      congr 1
      funext e
      by_cases huse : usesDelta e = true
      · simp only [if_pos huse, List.countP_cons_of_pos huse]
        rcases Nat.lt_or_ge (n + 1) (2 ^ 32) with hlt | hge
        · have hcount : ∀ c, addU32 (n + 1) c = addU32 n (c + 1) := by
            intro c
            rw [addU32, addU32, Nat.add_right_comm, Nat.add_assoc]
          rw [addU32_of_lt hlt, compute_ok, ih (n + 1) hlt (by omega)]
          simp only [bind_assoc, pure_bind, hcount]
        · -- the counter is full: this was the last entry
          obtain rfl : k = 0 := by omega
          simp only [Rbsp.hevcInterEntries, times, pure_bind, List.countP_nil]
      · simp only [if_neg huse, List.countP_cons_of_neg huse]
        rw [compute_ok, ih n hn (by omega)]
        simp only [bind_assoc, pure_bind]

theorem addU32_eq_zero_add (a b : ℕ) : addU32 a b = addU32 0 (a + b) := by
  rw [addU32, addU32, Nat.zero_add]

/-- **One set.**  The walk's reader reads it as the standard does and then adds up. -/
theorem hevcStRefPicSet_eq {i n : ℕ} {ns : List ℕ} (hns : i ≠ 0 → ns[i - 1]? = some n)
    (hn : n < 2 ^ 32) : Rbsp.hevcStRefPicSet i ns = (do
      let x ← Rbsp.stRefPicSet i n
      let c ← compute (addU32 0 x.counted)
      pure (x, c)) := by
  have hexplicit : (do
      let num_negative_pics ← Rbsp.ue
      let num_positive_pics ← Rbsp.ue
      let negative ← times num_negative_pics Rbsp.hevcExplicitEntry
      let positive ← times num_positive_pics Rbsp.hevcExplicitEntry
      let c ← compute (addU32 num_negative_pics num_positive_pics)
      pure (HevcStRefPicSet.explicit num_negative_pics num_positive_pics negative positive, c)) = (do
      let num_negative_pics ← Rbsp.ue
      let num_positive_pics ← Rbsp.ue
      let negative ← times num_negative_pics Rbsp.hevcExplicitEntry
      let positive ← times num_positive_pics Rbsp.hevcExplicitEntry
      let c ← compute (addU32 0 (num_negative_pics + num_positive_pics))
      pure (HevcStRefPicSet.explicit num_negative_pics num_positive_pics negative positive, c)) := by
    simp only [← addU32_eq_zero_add]
  rw [Rbsp.hevcStRefPicSet, Rbsp.stRefPicSet]
  simp only [bind_assoc]
  by_cases hi : i = 0
  · subst hi
    simp only [ne_eq, not_true_eq_false, if_false, pure_bind, Nat.zero_ne_one, bind_assoc]
    exact hexplicit
  · congr 1
    funext flag
    by_cases hone : flag = 1
    · have hentries := hevcInterEntries_eq (n + 1) 0 (by decide) (by omega)
      simp only [if_pos hone, bind_assoc, pure_bind, hns hi, okOr, compute_ok, hentries]
      rfl
    · simp only [if_neg hone, bind_assoc, pure_bind]
      exact hexplicit

/-- **When the value returned is right.**  Past the range of the counter it never is, whether the
addition panics or wraps. -/
theorem count_eq_iff {prev : RefPics} {x : HevcStRefPicSet}
    (hx : x.Coded prev.numDeltaPocs) (hprev : prev.numDeltaPocs < 2 ^ 32) :
    addU32 0 x.counted = .ok (x.pics prev).numDeltaPocs ↔
      x.NoZeroDelta prev ∧ (x.pics prev).numDeltaPocs < 2 ^ 32 := by
  obtain ⟨hle, hiff⟩ := HevcStRefPicSet.counted_eq_iff hx
  rw [← hiff]
  rcases Nat.lt_or_ge x.counted (2 ^ 32) with hlt | hge
  · rw [addU32_of_lt (by omega), Nat.zero_add, Except.ok.injEq]
    omega
  · refine iff_of_false ?_ (by omega)
    rw [addU32, if_neg (by omega), Nat.zero_add, overflow]
    split
    · intro heq
      cases heq
    · intro heq
      have hwrapped := Except.ok.inj heq
      cases x with
      | explicit num_neg num_pos negative positive =>
          have := hiff.2 trivial
          omega
      | inter sign abs entries =>
          have hlen : entries.length = prev.numDeltaPocs + 1 := hx
          have hcount : entries.countP usesDelta ≤ entries.length := List.countP_le_length
          rw [HevcStRefPicSet.counted] at hge hwrapped
          have hpos : 0 < (HevcStRefPicSet.pics prev (.inter sign abs entries)).numDeltaPocs :=
            HevcStRefPicSet.numDeltaPocs_pos hlen (by omega)
          rw [show entries.countP usesDelta = 2 ^ 32 from by omega, Nat.mod_self] at hwrapped
          omega

/-- The vector `num_delta_pocs` after `k` more turns of the loop over the sets. -/
def Walk.numDeltaPocs : ℕ → ℕ → List ℕ → Walk (List ℕ)
  | 0, _, num_delta_pocs => pure num_delta_pocs
  | k + 1, st_rps_idx, num_delta_pocs => do
    let n ← Walk.copyHevcStRefPicSet st_rps_idx num_delta_pocs
    Walk.numDeltaPocs k (st_rps_idx + 1) (num_delta_pocs ++ [n])

/-- The loop of the full walk builds this vector. -/
theorem copyHevcStRefPicSets_eq (k i : ℕ) (ns : List ℕ) :
    Walk.copyHevcStRefPicSets k i ns = (do let _ ← Walk.numDeltaPocs k i ns; pure ()) := by
  induction k generalizing i ns with
  | zero => rfl
  | succ k ih =>
      rw [Walk.copyHevcStRefPicSets, Walk.numDeltaPocs, bind_assoc]
      congr 1
      funext n
      exact ih (i + 1) (ns ++ [n])

/-- The loop only adds to the vector. -/
theorem numDeltaPocs_prefix {k i : ℕ} {ns ms : List ℕ} {r r' : BitReader} {w w' : BitWriter}
    (h : (Walk.numDeltaPocs k i ns).run r w = .ok (ms, r', w')) : ns <+: ms := by
  induction k generalizing i ns r w with
  | zero =>
      cases h
      exact List.prefix_rfl
  | succ k ih =>
      obtain ⟨⟨n, r₁, w₁⟩, -, hrest⟩ := Outcome.bind_eq_ok.1 h
      exact (List.prefix_append ns [n]).trans (ih hrest)

/-- **One turn of the loop.**  It copies the bits of the set and returns its count, if it can. -/
theorem copyHevcStRefPicSet_turn {i n : ℕ} {ns : List ℕ} (hns : i ≠ 0 → ns[i - 1]? = some n)
    (hn : n < 2 ^ 32) {r : BitReader} {s : List Bool} {x : HevcStRefPicSet} {ts : List Token}
    (h : (Rbsp.stRefPicSet i n).run r.rest = .ok (x, ts, s)) (w : BitWriter) :
    (r.skip (tokenBits ts).length).rest = s ∧
      match addU32 0 x.counted with
      | .error e => (Walk.copyHevcStRefPicSet i ns).run r w = .error e
      | .ok c => (Walk.copyHevcStRefPicSet i ns).run r w =
          .ok (c, r.skip (tokenBits ts).length, w.push (tokenBits ts)) := by
  have hskip : (r.skip (tokenBits ts).length).rest = s :=
    BitReader.rest_skip_of_append ((Rbsp.stRefPicSet i n).consumes h)
  refine ⟨hskip, ?_⟩
  have hrun := copies_hevcStRefPicSet i ns r w
  have hreader := run_bind (Rbsp.stRefPicSet i n) (fun x => do
    let c ← compute (addU32 0 x.counted)
    pure (x, c)) r.rest
  rw [← hevcStRefPicSet_eq hns hn, bindRun, h] at hreader
  cases hcount : addU32 0 x.counted with
  | error e =>
      simp only [hcount, compute] at hreader
      rw [hreader] at hrun
      exact hrun
  | ok c =>
      simp only [hcount, compute_ok, run_pure, List.append_nil] at hreader
      rw [hreader] at hrun
      obtain ⟨bs, -, hp⟩ := hrun
      -- what was written is what was read
      obtain ⟨bs', hrest, hw⟩ := (verbatim_copyHevcStRefPicSet i ns).of_run hp
      rw [hskip, (Rbsp.stRefPicSet i n).consumes h] at hrest
      rw [hp, hw, List.append_cancel_right hrest]

omit [BuildProfile] in
/-- The next set finds the count of the one just read where it looks for its predecessor's. -/
theorem counts_concat {i : ℕ} {ns : List ℕ} (hlen : ns.length = i) (m : ℕ) :
    (ns ++ [m]).length = i + 1 ∧ (ns ++ [m])[i + 1 - 1]? = some m := by
  constructor
  · rw [List.length_append, hlen, List.length_singleton]
  · rw [Nat.add_sub_cancel, ← hlen, List.getElem?_concat_length]

/-- **The loop over the sets.**  It returns the standard's numbers and stops where the standard stops
exactly when no entry comes out as zero. -/
theorem numDeltaPocs_run {k i : ℕ} {ns : List ℕ} {prev : RefPics}
    (hns : i ≠ 0 → ns[i - 1]? = some prev.numDeltaPocs) (hlen : ns.length = i)
    (hprev : prev.numDeltaPocs < 2 ^ 32) {r : BitReader} {s : List Bool}
    {sets : List HevcStRefPicSet} {ts : List Token} (w : BitWriter)
    (hread : (Rbsp.refPicSets RefPics.numDeltaPocs (fun prev x => x.pics prev) k i prev).run r.rest =
      .ok (sets, ts, s)) :
    (∃ r' w', (Walk.numDeltaPocs k i ns).run r w =
        .ok (ns ++ (derivedPics prev sets).map RefPics.numDeltaPocs, r', w') ∧ r'.rest = s) ↔
      NoZeroDeltas prev sets := by
  induction k generalizing i ns prev r w sets ts with
  | zero =>
      cases hread
      refine iff_of_true ⟨r, w, ?_, rfl⟩ trivial
      rw [derivedPics, List.map_nil, List.append_nil]
      rfl
  | succ k ih =>
      obtain ⟨x, ts₁, s₁, us₁, hx, h₁, -⟩ := run_bind_eq_ok.1 hread
      obtain ⟨xs, ts₂, s₂, us₂, hxs, h₂, -⟩ := run_bind_eq_ok.1 h₁
      cases h₂
      have hcoded := stRefPicSet_coded hx
      have hright := count_eq_iff hcoded hprev
      obtain ⟨hskip, hturn⟩ := copyHevcStRefPicSet_turn hns hprev hx w
      rw [derivedPics, NoZeroDeltas, ← hright, Walk.numDeltaPocs, Walk.run_bind]
      cases hcount : addU32 0 x.counted with
      | error e =>
          rw [hcount] at hturn
          rw [hturn]
          refine iff_of_false ?_ ?_
          · rintro ⟨r', w', hrun, -⟩
            cases hrun
          · rintro ⟨hrun, -⟩
            cases hrun
      | ok c =>
          rw [hcount] at hturn
          rw [hturn, Except.bind, Except.ok.injEq]
          by_cases hc : c = (x.pics prev).numDeltaPocs
          · subst hc
            -- what the turn returned stands in the vector
            obtain ⟨hlen', hlast⟩ := counts_concat hlen (x.pics prev).numDeltaPocs
            have hnext := ih (fun _ => hlast) hlen' (hright.1 hcount).2 (w.push (tokenBits ts₁))
              (hskip ▸ hxs)
            rw [List.append_assoc] at hnext
            exact hnext.trans (and_iff_right rfl).symm
          · refine iff_of_false ?_ fun h => hc h.1
            rintro ⟨r', w', hrun, -⟩
            have hprefix := numDeltaPocs_prefix hrun
            rw [List.map_cons, List.prefix_append_right_inj, List.cons_prefix_cons] at hprefix
            exact hc hprefix.1

/-- **The counts of the walk.**  Where the standard reads `k` sets, the walk returns their numbers of
delta POCs and takes the same bits exactly when no entry that uses its delta comes out as zero. -/
theorem numDeltaPocs_iff {k : ℕ} {r : BitReader} {sets : List HevcStRefPicSet} {s : List Bool}
    (w : BitWriter) (hread : (Rbsp.stRefPicSets k).parse r.rest = .ok (sets, s)) :
    (∃ r' w', (Walk.numDeltaPocs k 0 []).run r w =
        .ok ((derivedPics RefPics.none sets).map RefPics.numDeltaPocs, r', w') ∧ r'.rest = s) ↔
      NoZeroDeltas RefPics.none sets := by
  obtain ⟨ts, hrun⟩ := run_of_parse hread
  exact numDeltaPocs_run (fun h => absurd rfl h) rfl (by decide) w hrun

end Walk

/-- One picture before, then a set predicted from it with a difference of one, then one predicted from
that. -/
theorem numDeltaPocs_iff_cancelled :
    letI : BuildProfile := ⟨true⟩
    ¬ ∃ r' w', (Walk.numDeltaPocs 3 0 []).run (.new [0x5E, 0xF7, 0x80]) .new =
      .ok ((derivedPics RefPics.none [.explicit 1 0 [(0, 1)] [], .inter 0 0 [(1, none), (1, none)],
        .inter 0 0 [(1, none), (1, none)]]).map RefPics.numDeltaPocs, r', w') ∧
      r'.rest = bytesBits [0x80] := by
  let _ : BuildProfile := ⟨true⟩
  rw [numDeltaPocs_iff (k := 3)]
  · rintro ⟨-, ⟨hzero, -⟩, -⟩
    exact hzero (-1, true) (by decide) rfl (by decide)
  · decide +kernel

/-- The walk counts the picture that is the current one, and the set behind takes a bit too many. -/
theorem numDeltaPocs_cancelled :
    letI : BuildProfile := ⟨true⟩
    ((Rbsp.stRefPicSets 3).parse (bytesBits [0x5E, 0xF7, 0x80])).map (fun x =>
        ((derivedPics RefPics.none x.1).map RefPics.numDeltaPocs, x.2.length)) = .ok ([1, 1, 2], 8) ∧
      ((Walk.numDeltaPocs 3 0 []).run (.new [0x5E, 0xF7, 0x80]) .new).map (fun x =>
        (x.1, x.2.1.rest.length)) = .ok ([1, 2, 3], 7) := by
  decide +kernel

end Penflow
