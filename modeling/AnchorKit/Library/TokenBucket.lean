import Mathlib.Algebra.GroupWithZero.Nat
import Mathlib.Data.List.Induction

/-!
# Token buckets

A bucket holds at most `capacity` tokens and gains `refill` of them with every tick. Each accepted
request takes one. What any stretch of ticks lets through follows from what is left in the bucket
and the ticks since the start of the stretch.
-/

namespace TokenBucket

structure Rate where
  capacity : ℕ
  refill : ℕ

structure Bucket where
  tokens : ℕ
  last : ℕ

variable {r : Rate} {b : Bucket} {accepted : List ℕ} {now : ℕ}

/-- The bucket at `now`, before a request takes from it. -/
def refilled (r : Rate) (b : Bucket) (now : ℕ) : Bucket :=
  if b.last < now then ⟨min (b.tokens + (now - b.last) * r.refill) r.capacity, now⟩ else b

def spend (b : Bucket) : Bucket := { b with tokens := b.tokens - 1 }

/-- The requests accepted at ticks that satisfy `p`. -/
abbrev acceptedAt (accepted : List ℕ) (p : ℕ → Bool) : ℕ := accepted.countP p

/-- What a bucket owes to the ticks of the requests that were accepted, none before the bucket. -/
structure Faithful (r : Rate) (accepted : List ℕ) (b : Bucket) : Prop where
  tokens_le : b.tokens ≤ r.capacity
  le_last : ∀ tick ∈ accepted, tick ≤ b.last
  since : ∀ first ≤ b.last, acceptedAt accepted (first ≤ ·) + b.tokens ≤
    r.capacity + (b.last - first) * r.refill
  sliding : ∀ first n, acceptedAt accepted (fun tick => first ≤ tick && tick < first + n) ≤
    r.capacity + n * r.refill

def Tracks (r : Rate) (accepted : List ℕ) : Option Bucket → Prop
  | none => accepted = []
  | some b => Faithful r accepted b

theorem acceptedAt_from_eq_zero {first : ℕ} (h : ∀ tick ∈ accepted, tick ≤ now)
    (hfirst : now < first) : acceptedAt accepted (first ≤ ·) = 0 := by
  rw [acceptedAt, List.countP_eq_zero]
  intro tick htick
  have hle := h tick htick
  rw [decide_eq_true_eq]
  omega

theorem Faithful.full (r : Rate) (now : ℕ) : Faithful r [] ⟨r.capacity, now⟩ where
  tokens_le := Nat.le_refl _
  le_last := nofun
  since := fun first _ => by
    rw [acceptedAt, List.countP_nil, Nat.zero_add]
    exact Nat.le_add_right _ _
  sliding := fun first n => Nat.zero_le _

theorem Faithful.refilled (h : Faithful r accepted b) (now : ℕ) :
    Faithful r accepted (refilled r b now) := by
  unfold TokenBucket.refilled
  split
  · rename_i hlater
    refine ⟨Nat.min_le_right _ _, fun tick htick => ?_, fun first hfirst => ?_, h.sliding⟩
    · have hle := h.le_last tick htick
      dsimp only
      omega
    · dsimp only at hfirst ⊢
      rcases Nat.lt_or_ge b.last first with hafter | hbefore
      · -- the stretch starts after the last refill: nothing was accepted in it
        rw [acceptedAt_from_eq_zero h.le_last hafter]
        omega
      · have hsince := h.since first hbefore
        have hgain : (now - first) * r.refill =
            (b.last - first) * r.refill + (now - b.last) * r.refill := by
          rw [← Nat.add_mul]
          congr 1
          omega
        have hmin := Nat.min_le_left (b.tokens + (now - b.last) * r.refill) r.capacity
        omega
  · exact h

/-- A token that is lost. -/
theorem Faithful.lose (h : Faithful r accepted b) : Faithful r accepted (spend b) where
  tokens_le := Nat.le_trans (Nat.sub_le _ _) h.tokens_le
  le_last := h.le_last
  since := fun first hfirst =>
    Nat.le_trans (Nat.add_le_add_left (Nat.sub_le _ _) _) (h.since first hfirst)
  sliding := h.sliding

theorem Faithful.spend (h : Faithful r accepted b) (htoken : 0 < b.tokens) :
    Faithful r (accepted ++ [b.last]) (spend b) := by
  have hfrom (first : ℕ) (hfirst : first ≤ b.last) :
      acceptedAt (accepted ++ [b.last]) (first ≤ ·) = acceptedAt accepted (first ≤ ·) + 1 := by
    rw [acceptedAt, List.countP_append, List.countP_singleton, if_pos (decide_eq_true hfirst)]
  refine ⟨?_, fun tick htick => ?_, fun first hfirst => ?_, fun first n => ?_⟩
  · exact Nat.le_trans (Nat.sub_le _ _) h.tokens_le
  · rcases List.mem_append.mp htick with htick | htick
    · exact h.le_last tick htick
    · exact Nat.le_of_eq (List.mem_singleton.mp htick)
  · have hsince := h.since first hfirst
    rw [hfrom first hfirst, TokenBucket.spend]
    dsimp only
    omega
  · by_cases hin : first ≤ b.last ∧ b.last < first + n
    · -- every accepted request since `first` is in the stretch
      obtain ⟨hfirst, hend⟩ := hin
      have hsince := h.since first hfirst
      have hsub : acceptedAt (accepted ++ [b.last]) (fun tick => first ≤ tick && tick < first + n) ≤
          acceptedAt (accepted ++ [b.last]) (first ≤ ·) :=
        List.countP_mono_left fun tick _ htick => (Bool.and_eq_true _ _ ▸ htick).1
      have hgain : (b.last - first) * r.refill ≤ n * r.refill :=
        Nat.mul_le_mul_right _ (by omega)
      rw [hfrom first hfirst] at hsub
      omega
    · have hout : (first ≤ b.last && b.last < first + n) = false := by
        rw [← Bool.not_eq_true, Bool.and_eq_true, decide_eq_true_eq, decide_eq_true_eq]
        exact hin
      rw [acceptedAt, List.countP_append, List.countP_singleton, hout]
      exact h.sliding first n

end TokenBucket
