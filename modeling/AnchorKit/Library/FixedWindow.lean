import Mathlib.Algebra.BigOperators.Group.List.Basic
import Mathlib.Algebra.GroupWithZero.Nat
import Mathlib.Data.List.Induction

/-!
# Fixed-window quotas

At most `max` units can be charged in a window of `length` ticks. A window opens with the first
charge after the previous one has expired, so windows are not aligned to anything: what an
arbitrary stretch of ticks can hold follows from how far two openings are apart.
-/

namespace FixedWindow

structure Quota where
  max : Nat
  length : Nat

structure Window where
  start : Nat
  used : Nat

structure Charge where
  now : Nat
  cost : Nat

/-- The window a charge at `now` counts in: the stored one while it lasts, else a new one. -/
def openAt (q : Quota) (w : Option Window) (now : Nat) : Window :=
  match w with
  | none => ⟨now, 0⟩
  | some w => if q.length ≤ now - w.start then ⟨now, 0⟩ else w

def Admits (q : Quota) (w : Option Window) (c : Charge) : Prop :=
  (openAt q w c.now).used + c.cost ≤ q.max

def charged (q : Quota) (w : Option Window) (c : Charge) : Window :=
  { openAt q w c.now with used := (openAt q w c.now).used + c.cost }

/-- The units charged at ticks that satisfy `p`. -/
def spent (past : List Charge) (p : Nat → Bool) : Nat :=
  ((past.filter fun c => p c.now).map Charge.cost).sum

/-- The units charged from tick `a` on. -/
def spentFrom (past : List Charge) (a : Nat) : Nat := spent past fun n => a ≤ n

/-- The units charged from tick `a` on and before tick `b`. -/
def spentIn (past : List Charge) (a b : Nat) : Nat := spent past fun n => a ≤ n && n < b

theorem spent_snoc (past : List Charge) (c : Charge) (p : Nat → Bool) :
    spent (past ++ [c]) p = spent past p + if p c.now then c.cost else 0 := by
  simp only [spent, List.filter_append, List.map_append, List.sum_append]
  by_cases h : p c.now <;> simp [h]

theorem spentFrom_snoc (past : List Charge) (c : Charge) (a : Nat) :
    spentFrom (past ++ [c]) a = spentFrom past a + if a ≤ c.now then c.cost else 0 := by
  rw [spentFrom, spent_snoc, ← spentFrom]
  simp

theorem cost_le_spentFrom (past : List Charge) (c : Charge) :
    c.cost ≤ spentFrom (past ++ [c]) c.now := by
  rw [spentFrom_snoc, if_pos (Nat.le_refl _)]
  exact Nat.le_add_left _ _

theorem spentIn_snoc (past : List Charge) (c : Charge) (a b : Nat) :
    spentIn (past ++ [c]) a b =
      spentIn past a b + if a ≤ c.now ∧ c.now < b then c.cost else 0 := by
  rw [spentIn, spent_snoc, ← spentIn]
  simp

/-- Charges are counted once on each side of a cut. -/
theorem spent_le_add {past : List Charge} {p q r : Nat → Bool}
    (h : ∀ c ∈ past, p c.now = true → q c.now = true ∨ r c.now = true) :
    spent past p ≤ spent past q + spent past r := by
  induction past using List.reverseRecOn with
  | nil => simp [spent]
  | append_singleton past c ih =>
    have hpast := ih fun d hd => h d (List.mem_append_left _ hd)
    have hc := h c (by simp)
    rw [spent_snoc, spent_snoc, spent_snoc]
    by_cases hp : p c.now = true
    · rcases hc hp with hq | hr
      · rw [if_pos hp, if_pos hq]
        omega
      · rw [if_pos hp, if_pos hr]
        omega
    · rw [if_neg hp]
      omega

theorem spent_eq_zero {past : List Charge} {p : Nat → Bool}
    (h : ∀ c ∈ past, p c.now = false) : spent past p = 0 := by
  have hnone : (past.filter fun c => p c.now) = [] := by
    rw [List.filter_eq_nil_iff]
    intro c hc
    simp [h c hc]
  simp [spent, hnone]

/-- A stretch up to a cut at `b` and the rest after it. -/
theorem spentIn_le_cut (past : List Charge) (a b d : Nat) :
    spentIn past a d ≤ spentIn past a b + spentFrom past b := by
  apply spent_le_add
  intro c _ hc
  simp only [Bool.and_eq_true, decide_eq_true_eq] at hc ⊢
  omega

theorem spentIn_le_spentFrom {past : List Charge} {a b d : Nat} (h : b ≤ a) :
    spentIn past a d ≤ spentFrom past b := by
  have hcut := spentIn_le_cut past a b d
  have hempty : spentIn past a b = 0 := by
    apply spent_eq_zero
    intro c _
    simp only [Bool.and_eq_false_iff, decide_eq_false_iff_not]
    omega
  omega

/-- What the history of charges owes to the current window when windows have a positive length. -/
structure Tight (q : Quota) (past : List Charge) (w : Window) : Prop where
  spent_le : spentFrom past w.start ≤ w.used
  ends : ∀ c ∈ past, c.now < w.start + q.length
  /-- Only the previous window reaches less than a window's length back. -/
  previous : ∀ a, w.start < a + q.length → spentIn past a w.start ≤ q.max
  sliding : ∀ a, spentIn past a (a + q.length) ≤ 2 * q.max

structure Faithful (q : Quota) (past : List Charge) (w : Window) : Prop where
  opened : ∃ c ∈ past, c.now = w.start
  used_le : w.used ≤ q.max
  used_le_spent : w.used ≤ spentFrom past w.start
  tight : 0 < q.length → Tight q past w

def Tracks (q : Quota) (past : List Charge) : Option Window → Prop
  | none => past = []
  | some w => Faithful q past w

variable {q : Quota} {past : List Charge} {w : Window} {c : Charge}

/-- A charge in the window that is still open. -/
theorem Tight.continued (h : Tight q past w) (hstart : w.start ≤ c.now)
    (hopen : c.now < w.start + q.length) (hfits : w.used + c.cost ≤ q.max) :
    Tight q (past ++ [c]) { w with used := w.used + c.cost } where
  spent_le := by
    have hspent := h.spent_le
    change spentFrom (past ++ [c]) w.start ≤ w.used + c.cost
    rw [spentFrom_snoc, if_pos hstart]
    omega
  ends := by
    intro d hd
    rcases List.mem_append.mp hd with hd | hd
    · exact h.ends d hd
    · obtain rfl := List.mem_singleton.mp hd
      exact hopen
  previous := by
    intro a ha
    have hout : ¬(a ≤ c.now ∧ c.now < w.start) := by omega
    rw [spentIn_snoc, if_neg hout]
    exact h.previous a ha
  sliding := by
    intro a
    rw [spentIn_snoc]
    split
    · have hcut := spentIn_le_cut past a w.start (a + q.length)
      have hprevious := h.previous a (by omega)
      have hspent := h.spent_le
      omega
    · exact h.sliding a

theorem Tight.opened (hlen : 0 < q.length) (hpast : ∀ d ∈ past, d.now < c.now)
    (hprevious : ∀ a, c.now < a + q.length → spentIn past a c.now ≤ q.max)
    (hsliding : ∀ a, spentIn past a (a + q.length) ≤ 2 * q.max) (hfits : c.cost ≤ q.max) :
    Tight q (past ++ [c]) ⟨c.now, c.cost⟩ where
  spent_le := by
    have hnone : spentFrom past c.now = 0 := by
      apply spent_eq_zero
      intro d hd
      simpa using hpast d hd
    change spentFrom (past ++ [c]) c.now ≤ c.cost
    apply Nat.le_of_eq
    rw [spentFrom_snoc, if_pos (Nat.le_refl _), hnone, Nat.zero_add]
  ends := by
    intro d hd
    rcases List.mem_append.mp hd with hd | hd
    · have hlt := hpast d hd
      change d.now < c.now + q.length
      omega
    · obtain rfl := List.mem_singleton.mp hd
      change d.now < d.now + q.length
      omega
  previous := by
    intro a ha
    have hout : ¬(a ≤ c.now ∧ c.now < c.now) := by omega
    rw [spentIn_snoc, if_neg hout]
    exact hprevious a ha
  sliding := by
    intro a
    rw [spentIn_snoc]
    split
    · have hcut := spentIn_le_cut past a c.now (a + q.length)
      have hnone : spentFrom past c.now = 0 := by
        apply spent_eq_zero
        intro d hd
        simpa using hpast d hd
      have hbefore := hprevious a (by omega)
      omega
    · exact hsliding a

theorem Tight.previous_of_expired (h : Tight q past w) (hused : w.used ≤ q.max)
    (hexpired : w.start + q.length ≤ c.now) {a : Nat} (ha : c.now < a + q.length) :
    spentIn past a c.now ≤ q.max := by
  have hfrom : spentIn past a c.now ≤ spentFrom past w.start := spentIn_le_spentFrom (by omega)
  have hspent := h.spent_le
  omega

theorem Faithful.start_le (h : Faithful q past w) (hmono : ∀ d ∈ past, d.now ≤ c.now) :
    w.start ≤ c.now := by
  obtain ⟨d, hd, hopened⟩ := h.opened
  exact hopened ▸ hmono d hd

/-- The step rule: an admitted charge keeps the window faithful to the history, as long as time
does not run backwards. -/
theorem Tracks.charge {w : Option Window} (h : Tracks q past w) (hadmits : Admits q w c)
    (hmono : ∀ d ∈ past, d.now ≤ c.now) :
    Tracks q (past ++ [c]) (some (charged q w c)) := by
  unfold Admits at hadmits
  unfold charged
  cases w with
  | none =>
    obtain rfl : past = [] := h
    simp only [openAt, Nat.zero_add] at hadmits ⊢
    refine ⟨⟨c, by simp⟩, hadmits, cost_le_spentFrom _ c, fun hlen => ?_⟩
    exact Tight.opened hlen (by simp) (by simp [spentIn, spent]) (by simp [spentIn, spent]) hadmits
  | some w =>
    have hw : Faithful q past w := h
    have hstart := hw.start_le hmono
    by_cases hexpired : q.length ≤ c.now - w.start
    · simp only [openAt, if_pos hexpired, Nat.zero_add] at hadmits ⊢
      refine ⟨⟨c, by simp⟩, hadmits, cost_le_spentFrom _ c,
        fun hlen => ?_⟩
      have htight := hw.tight hlen
      have hends : w.start + q.length ≤ c.now := by omega
      refine Tight.opened hlen (fun d hd => Nat.lt_of_lt_of_le (htight.ends d hd) hends)
        (fun a ha => htight.previous_of_expired hw.used_le hends ha) htight.sliding hadmits
    · simp only [openAt, if_neg hexpired] at hadmits ⊢
      obtain ⟨d, hd, hopened⟩ := hw.opened
      refine ⟨⟨d, List.mem_append_left _ hd, hopened⟩, hadmits, ?_, fun hlen => ?_⟩
      · have hspent := hw.used_le_spent
        change w.used + c.cost ≤ spentFrom (past ++ [c]) w.start
        rw [spentFrom_snoc, if_pos hstart]
        omega
      · exact (hw.tight hlen).continued hstart (by omega) hadmits

/-- Any `length` consecutive ticks hold at most twice the quota. -/
theorem Tracks.sliding {w : Option Window} (h : Tracks q past w) (a : Nat) :
    spentIn past a (a + q.length) ≤ 2 * q.max := by
  rcases Nat.eq_zero_or_pos q.length with hlen | hlen
  · have hnone : spentIn past a (a + q.length) = 0 := by
      apply spent_eq_zero
      intro c _
      simp only [Bool.and_eq_false_iff, decide_eq_false_iff_not]
      omega
    omega
  · cases w with
    | none =>
      obtain rfl : past = [] := h
      simp [spentIn, spent]
    | some w => exact ((show Faithful q past w from h).tight hlen).sliding a

/-- A charge that does not fit finds the rest of the quota spent in the window that is open. -/
theorem Tracks.of_not_admits {w : Option Window} (h : Tracks q past w) (hno : ¬ Admits q w c)
    (hmono : ∀ d ∈ past, d.now ≤ c.now) :
    ∃ start, start ≤ c.now ∧ (c.now < start + q.length ∨ c.now = start) ∧
      q.max < spentFrom past start + c.cost := by
  refine ⟨(openAt q w c.now).start, ?_⟩
  unfold Admits at hno
  cases w with
  | none =>
    simp only [openAt] at hno ⊢
    exact ⟨Nat.le_refl _, Or.inr trivial, by omega⟩
  | some w =>
    have hw : Faithful q past w := h
    have hstart := hw.start_le hmono
    by_cases hexpired : q.length ≤ c.now - w.start
    · simp only [openAt, if_pos hexpired] at hno ⊢
      exact ⟨Nat.le_refl _, Or.inr trivial, by omega⟩
    · simp only [openAt, if_neg hexpired] at hno ⊢
      have hspent := hw.used_le_spent
      exact ⟨hstart, Or.inl (by omega), by omega⟩

end FixedWindow
