import Mathlib.Data.List.Infix
import Mathlib.Data.Nat.Notation

/-!
# Annex B byte streams

A byte stream of NAL units: some leading bytes, then units, each a start code of three or four bytes
and a payload up to the next one.  Where the codes stand is not written down anywhere; a reader finds
them by looking, and always takes the first one it sees.  `Tight` says that a decomposition is the
one such a reader finds.  Every byte string has one (`exists_tight`).

`settle` is what happens to a stream put together from payloads that hold no start code: it is read
back as it was, except that a zero at the end of a payload joins a three-byte code behind it.
-/

namespace AnnexB

/-- The three-byte start code. -/
def shortCode : List UInt8 := [0, 0, 1]

/-- The four-byte start code. -/
def longCode : List UInt8 := [0, 0, 0, 1]

/-- A unit: which start code it has, and what follows it. -/
structure Nal where
  long : Bool
  payload : List UInt8
  deriving DecidableEq

def Nal.code (u : Nal) : List UInt8 := if u.long then longCode else shortCode

def Nal.bytes (u : Nal) : List UInt8 := u.code ++ u.payload

/-- The stream of some leading bytes and some units. -/
def join (pre : List UInt8) (us : List Nal) : List UInt8 := pre ++ us.flatMap Nal.bytes

/-- A start code stands at the front of `s`. -/
def Begins (s : List UInt8) : Prop := longCode <+: s ∨ shortCode <+: s

/-- No start code begins inside `p` when `c` follows. -/
def Free (c : List UInt8) : List UInt8 → Prop
  | [] => True
  | b :: p => ¬ Begins (b :: (p ++ c)) ∧ Free c p

/-- A decomposition whose codes are the ones a reader sees. -/
def Tight : List UInt8 → List Nal → Prop
  | p, [] => Free [] p
  | p, u :: us => Free u.code p ∧ Tight u.payload us

@[simp] theorem join_nil (pre : List UInt8) : join pre [] = pre := by simp [join]

@[simp] theorem join_cons (pre : List UInt8) (u : Nal) (us : List Nal) :
    join pre (u :: us) = pre ++ (u.code ++ join u.payload us) := by
  simp [join, Nal.bytes]

theorem join_pre_cons (b : UInt8) (pre : List UInt8) (us : List Nal) :
    join (b :: pre) us = b :: join pre us := rfl

theorem join_append (pre p : List UInt8) (us : List Nal) :
    join (pre ++ p) us = pre ++ join p us := List.append_assoc ..

/-- Past one more unit the stream is the rest of the units. -/
theorem flatMap_next {bytes a : List UInt8} {u : Nal} {us : List Nal}
    (hbytes : bytes = a ++ (u :: us).flatMap Nal.bytes) : bytes = (a ++ u.bytes) ++ us.flatMap Nal.bytes := by
  rw [hbytes, List.flatMap_cons, List.append_assoc]

/-! ### Start codes -/

theorem code_cases (u : Nal) : u.code = longCode ∨ u.code = shortCode := by
  cases hl : u.long
  · exact .inr (by simp [Nal.code, hl])
  · exact .inl (by simp [Nal.code, hl])

theorem three_le_code_length (u : Nal) : 3 ≤ u.code.length := by
  rcases code_cases u with h | h <;> rw [h] <;> decide

theorem begins_iff (a b c : UInt8) (t : List UInt8) :
    Begins (a :: b :: c :: t) ↔ a = 0 ∧ b = 0 ∧ (c = 1 ∨ c = 0 ∧ t.head? = some 1) := by
  cases t with
  | nil => simp [Begins, longCode, shortCode, List.cons_prefix_cons, eq_comm]
  | cons d t =>
      simp only [Begins, longCode, shortCode, List.cons_prefix_cons, List.nil_prefix, and_true,
        List.head?_cons, Option.some.injEq, eq_comm]
      tauto

theorem Begins.head {b : UInt8} {s : List UInt8} (h : Begins (b :: s)) : b = 0 := by
  rcases h with h | h <;> exact ((List.cons_prefix_cons.1 h).1).symm

/-- A start code ahead is the same start code with more bytes behind. -/
theorem Begins.append {s : List UInt8} (h : Begins s) (t : List UInt8) : Begins (s ++ t) :=
  h.imp (fun h => h.trans (List.prefix_append s t)) fun h => h.trans (List.prefix_append s t)

/-- Four bytes decide whether a start code begins. -/
theorem begins_append_iff {s : List UInt8} (t : List UInt8) (h : 4 ≤ s.length) :
    Begins (s ++ t) ↔ Begins s := by
  refine ⟨fun hb => ?_, fun hb => hb.append t⟩
  exact hb.imp
    (fun hp => List.prefix_of_prefix_length_le hp (List.prefix_append s t) (by simpa [longCode]))
    fun hp => List.prefix_of_prefix_length_le hp (List.prefix_append s t)
      (by simp only [shortCode, List.length_cons, List.length_nil]; omega)

/-- In front of a code, inside `p`, the code decides for whatever is behind it. -/
theorem begins_cons_code_iff (b : UInt8) (p : List UInt8) (u : Nal) (t : List UInt8) :
    Begins (b :: (p ++ (u.code ++ t))) ↔ Begins (b :: (p ++ u.code)) := by
  have hlen := three_le_code_length u
  have hassoc : b :: (p ++ (u.code ++ t)) = (b :: (p ++ u.code)) ++ t := by simp
  rw [hassoc]
  refine begins_append_iff t ?_
  simp only [List.length_cons, List.length_append]
  omega

theorem begins_code (u : Nal) (t : List UInt8) : Begins (u.code ++ t) := by
  rcases code_cases u with h | h <;> rw [h]
  · exact .inl (List.prefix_append ..)
  · exact .inr (List.prefix_append ..)

theorem not_long_prefix_short (t : List UInt8) : ¬ longCode <+: shortCode ++ t := by
  intro h
  simp [longCode, shortCode, List.cons_prefix_cons] at h

theorem Free.of_code {c p : List UInt8} (h : Free c p) : Free [] p := by
  induction p with
  | nil => trivial
  | cons b p ih =>
      refine ⟨fun hb => h.1 ?_, ih h.2⟩
      rw [List.append_nil] at hb
      exact hb.append c

/-! ### Reading a tight stream from the front -/

theorem Tight.tail {b : UInt8} {p : List UInt8} {us : List Nal} (h : Tight (b :: p) us) :
    Tight p us := by
  cases us with
  | nil => exact h.2
  | cons u us => exact ⟨h.1.2, h.2⟩

theorem Tight.drop {p : List UInt8} {us : List Nal} (h : Tight p us) (n : ℕ) :
    Tight (p.drop n) us := by
  induction n generalizing p with
  | zero => exact h
  | succ n ih =>
      cases p with
      | nil => exact h
      | cons b p => exact ih h.tail

theorem Tight.nil {p : List UInt8} {us : List Nal} (h : Tight p us) : Tight [] us := by
  cases us with
  | nil => trivial
  | cons u us => exact ⟨trivial, h.2⟩

/-- Before the first code a reader sees nothing. -/
theorem Tight.not_begins {b : UInt8} {p : List UInt8} {us : List Nal} (h : Tight (b :: p) us) :
    ¬ Begins (b :: join p us) := by
  cases us with
  | nil => simpa using h.1
  | cons u us =>
      intro hb
      rw [join_cons] at hb
      exact h.1.1 ((begins_cons_code_iff b p u _).1 hb)

theorem Tight.not_begins_drop {p : List UInt8} {us : List Nal} (h : Tight p us) {i : ℕ}
    (hi : i < p.length) : ¬ Begins ((join p us).drop i) := by
  induction p generalizing i with
  | nil => cases hi
  | cons b p ih =>
      cases i with
      | zero => exact h.not_begins
      | succ i => exact ih h.tail (Nat.lt_of_succ_lt_succ hi)

/-! ### Every stream has a tight decomposition -/

theorem exists_tight (s : List UInt8) : ∃ pre us, Tight pre us ∧ s = join pre us := by
  induction hn : s.length using Nat.strong_induction_on generalizing s with
  | _ n ih =>
      subst hn
      by_cases hlong : longCode <+: s
      · obtain ⟨t, rfl⟩ := hlong
        obtain ⟨pre, us, htight, rfl⟩ := ih t.length (by simp [longCode]; omega) t rfl
        exact ⟨[], ⟨true, pre⟩ :: us, ⟨trivial, htight⟩, by simp [Nal.code]⟩
      · by_cases hshort : shortCode <+: s
        · obtain ⟨t, rfl⟩ := hshort
          obtain ⟨pre, us, htight, rfl⟩ := ih t.length (by simp [shortCode]; omega) t rfl
          exact ⟨[], ⟨false, pre⟩ :: us, ⟨trivial, htight⟩, by simp [Nal.code]⟩
        · cases s with
          | nil => exact ⟨[], [], trivial, rfl⟩
          | cons b t =>
              obtain ⟨pre, us, htight, rfl⟩ := ih t.length (by simp) t rfl
              have hno : ¬ Begins (b :: join pre us) := fun h => h.elim hlong hshort
              refine ⟨b :: pre, us, ?_, rfl⟩
              cases us with
              | nil =>
                  refine ⟨?_, htight⟩
                  simpa using hno
              | cons u us =>
                  refine ⟨⟨?_, htight.1⟩, htight.2⟩
                  rw [join_cons] at hno
                  exact fun h => hno ((begins_cons_code_iff b pre u _).2 h)

/-! ### Putting a stream together -/

theorem free_longCode {p : List UInt8} (h : Free [] p) : Free longCode p := by
  induction p with
  | nil => trivial
  | cons b p ih =>
      refine ⟨fun hb => h.1 ?_, ih h.2⟩
      rw [List.append_nil]
      match p, hb with
      | [], hb => simp [longCode, begins_iff] at hb
      | [_], hb => simp [longCode, begins_iff] at hb
      | [_, _], hb => simpa [longCode, begins_iff] using hb
      | c₁ :: c₂ :: c₃ :: q, hb => exact (begins_append_iff longCode (by simp)).1 hb

/-- Only a zero right before a three-byte code makes a code begin earlier. -/
theorem free_shortCode {p : List UInt8} (h : Free [] p) (hlast : p.getLast? ≠ some 0) :
    Free shortCode p := by
  induction p with
  | nil => trivial
  | cons b p ih =>
      have hlast' : p.getLast? ≠ some 0 := by
        cases p with
        | nil => simp
        | cons c q => rwa [List.getLast?_cons_cons] at hlast
      refine ⟨fun hb => ?_, ih h.2 hlast'⟩
      have hno := h.1
      rw [List.append_nil] at hno
      match p, hb with
      | [], hb =>
          have hzero : b = 0 := by simpa [shortCode, begins_iff] using hb
          exact hlast (by rw [hzero]; rfl)
      | [_], hb => simp [shortCode, begins_iff] at hb
      | [_, _], hb => exact hno (by simpa [shortCode, begins_iff] using hb)
      | c₁ :: c₂ :: c₃ :: q, hb => exact hno ((begins_append_iff shortCode (by simp)).1 hb)

theorem last_ne_zero_of_free {p : List UInt8} (h : Free shortCode p) : p.getLast? ≠ some 0 := by
  induction p with
  | nil => simp
  | cons b p ih =>
      cases p with
      | nil =>
          intro hlast
          obtain rfl : b = 0 := by simpa using hlast
          exact h.1 (by simp [shortCode, begins_iff])
      | cons c q =>
          rw [List.getLast?_cons_cons]
          exact ih h.2

theorem free_dropLast {p : List UInt8} (h : Free [] p) : Free [] p.dropLast := by
  induction p with
  | nil => trivial
  | cons b p ih =>
      cases p with
      | nil => trivial
      | cons c q =>
          refine ⟨fun hb => h.1 ?_, ih h.2⟩
          rw [List.append_nil] at hb ⊢
          have hsplit : b :: c :: q = (b :: (c :: q).dropLast) ++ [(c :: q).getLast (by simp)] := by
            rw [List.cons_append, List.dropLast_append_getLast]
          rw [hsplit]
          exact hb.append _

/-- The decomposition a reader sees of a stream put together from units: a zero before a three-byte
code makes it a four-byte one. -/
def settle : List UInt8 → List Nal → List UInt8 × List Nal
  | p, [] => (p, [])
  | p, u :: us =>
    let rest := settle u.payload us
    if u.long = false ∧ p.getLast? = some 0 then
      (p.dropLast, ⟨true, rest.1⟩ :: rest.2)
    else
      (p, ⟨u.long, rest.1⟩ :: rest.2)

theorem join_settle (p : List UInt8) (us : List Nal) :
    join (settle p us).1 (settle p us).2 = join p us := by
  induction us generalizing p with
  | nil => rfl
  | cons u us ih =>
      rw [settle, join_cons, ← ih u.payload]
      by_cases hzero : u.long = false ∧ p.getLast? = some 0
      · obtain ⟨hlong, hlast⟩ := hzero
        obtain ⟨q, rfl⟩ := List.getLast?_eq_some_iff.1 hlast
        simp only [hlong, hlast, and_self, if_true, List.dropLast_concat, join_cons, Nal.code,
          longCode, shortCode, Bool.false_eq_true, if_false, List.append_assoc]
        rfl
      · simp only [if_neg hzero, join_cons]
        rfl

/-- **Reading back.**  Payloads without start codes, put together, are read back up to `settle`. -/
theorem tight_settle {p : List UInt8} {us : List Nal} (hp : Free [] p)
    (hus : ∀ u ∈ us, Free [] u.payload) : Tight (settle p us).1 (settle p us).2 := by
  induction us generalizing p with
  | nil => exact hp
  | cons u us ih =>
      have hrest := ih (hus u List.mem_cons_self) fun v hv => hus v (List.mem_cons_of_mem u hv)
      rw [settle]
      by_cases hzero : u.long = false ∧ p.getLast? = some 0
      · simp only [if_pos hzero]
        exact ⟨free_longCode (free_dropLast hp), hrest⟩
      · simp only [if_neg hzero]
        refine ⟨?_, hrest⟩
        by_cases hlong : u.long = true
        · simpa [Nal.code, hlong] using free_longCode hp
        · have hlast : p.getLast? ≠ some 0 := fun h => hzero ⟨by simpa using hlong, h⟩
          simpa [Nal.code, hlong] using free_shortCode hp hlast

/-- Where the next code is not moved, the bytes before it stay. -/
theorem settle_of_free {p : List UInt8} {u : Nal} (us : List Nal) (h : Free u.code p) :
    settle p (u :: us) =
      (p, ⟨u.long, (settle u.payload us).1⟩ :: (settle u.payload us).2) := by
  have hzero : ¬ (u.long = false ∧ p.getLast? = some 0) := by
    rintro ⟨hlong, hlast⟩
    have hcode : u.code = shortCode := by simp [Nal.code, hlong]
    rw [hcode] at h
    exact last_ne_zero_of_free h hlast
  rw [settle, if_neg hzero]

theorem settle_of_tight {p : List UInt8} {us : List Nal} (h : Tight p us) :
    settle p us = (p, us) := by
  induction us generalizing p with
  | nil => rfl
  | cons u us ih => rw [settle_of_free us h.1, ih h.2]

/-- At most one zero moves. -/
theorem settle_fst (p : List UInt8) (us : List Nal) :
    ∃ z, (z = [] ∨ z = [0]) ∧ (settle p us).1 ++ z = p := by
  cases us with
  | nil => exact ⟨[], .inl rfl, List.append_nil p⟩
  | cons u us =>
      rw [settle]
      by_cases hzero : u.long = false ∧ p.getLast? = some 0
      · obtain ⟨q, rfl⟩ := List.getLast?_eq_some_iff.1 hzero.2
        refine ⟨[0], .inr rfl, ?_⟩
        rw [if_pos hzero, List.dropLast_concat]
      · rw [if_neg hzero]
        exact ⟨[], .inl rfl, List.append_nil p⟩

/-- The zero that moves is not the first byte of a payload that begins with something else. -/
theorem settle_head {p : List UInt8} {b : UInt8} (us : List Nal) (h : p.head? = some b)
    (hb : b ≠ 0) : (settle p us).1.head? = some b := by
  obtain ⟨z, hz, hsettle⟩ := settle_fst p us
  cases hp : (settle p us).1 with
  | nil =>
      rw [hp, List.nil_append] at hsettle
      rcases hz with rfl | rfl
      · rw [← hsettle] at h
        cases h
      · rw [← hsettle] at h
        exact absurd (Option.some.inj h).symm hb
  | cons c q =>
      rw [hp] at hsettle
      rw [← hsettle] at h
      exact h

/-- The units after `settle` are the settled payloads, whatever comes before them. -/
theorem settle_snd (p : List UInt8) (u : Nal) (us : List Nal) :
    ∃ long, (settle p (u :: us)).2 = ⟨long, (settle u.payload us).1⟩ :: (settle u.payload us).2 := by
  rw [settle]
  by_cases hzero : u.long = false ∧ p.getLast? = some 0
  · exact ⟨true, by rw [if_pos hzero]⟩
  · exact ⟨u.long, by rw [if_neg hzero]⟩

theorem Tight.free {p : List UInt8} {us : List Nal} (h : Tight p us) :
    Free [] p ∧ ∀ u ∈ us, Free [] u.payload := by
  induction us generalizing p with
  | nil => exact ⟨h, by simp⟩
  | cons u us ih =>
      obtain ⟨hpayload, hus⟩ := ih h.2
      refine ⟨h.1.of_code, fun v hv => ?_⟩
      rcases List.mem_cons.1 hv with rfl | hv
      · exact hpayload
      · exact hus v hv

end AnnexB
