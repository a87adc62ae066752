import AnchorKit.Library.KeyedStore
import Mathlib.Data.List.Induction
import Mathlib.Data.List.Nodup

/-!
# Lists read by key

A list whose elements carry keys is read, and rewritten, at the first element with the key. As
long as no key occurs twice, such a list holds what a keyed store together with the list of its
keys holds.
-/

namespace KeyedList

variable {K V : Type*} [DecidableEq K] (key : V → K)

def lookup (k : K) (l : List V) : Option V := l.find? fun v => key v = k

/-- Put `v` in the place of the first element with key `k`. -/
def rewrite (k : K) (v : V) : List V → List V
  | [] => []
  | x :: l => if key x = k then v :: l else x :: rewrite k v l

variable {key} {k x : K} {v w : V} {l : List V}

theorem lookup_nil : lookup key k ([] : List V) = none := by simp [lookup]

theorem lookup_cons : lookup key k (v :: l) = if key v = k then some v else lookup key k l := by
  unfold lookup
  by_cases h : key v = k
  · simp [h]
  · simp [h]

theorem lookup_append (l l' : List V) :
    lookup key k (l ++ l') = (lookup key k l).or (lookup key k l') := List.find?_append

theorem lookup_singleton : lookup key k [v] = if key v = k then some v else none := by
  rw [lookup_cons, lookup_nil]

theorem key_of_lookup (h : lookup key k l = some v) : key v = k := by
  simpa using List.find?_some h

theorem mem_of_lookup (h : lookup key k l = some v) : v ∈ l := List.mem_of_find?_eq_some h

theorem lookup_eq_none : lookup key k l = none ↔ k ∉ l.map key := by
  simp [lookup]

/-- An element whose key occurs once is the one that is read. -/
theorem lookup_key (hl : (l.map key).Nodup) (hv : v ∈ l) : lookup key (key v) l = some v := by
  induction l with
  | nil => cases hv
  | cons w l ih =>
    rw [List.map_cons, List.nodup_cons] at hl
    rw [lookup_cons]
    rcases List.mem_cons.mp hv with rfl | hv
    · rw [if_pos rfl]
    · have hne : key w ≠ key v := fun heq => hl.1 (List.mem_map.mpr ⟨v, hv, heq.symm⟩)
      rw [if_neg hne, ih hl.2 hv]

theorem lookup_eq_some (hl : (l.map key).Nodup) :
    lookup key k l = some v ↔ v ∈ l ∧ key v = k := by
  constructor
  · exact fun h => ⟨mem_of_lookup h, key_of_lookup h⟩
  · rintro ⟨hv, rfl⟩
    exact lookup_key hl hv

theorem lookup_rewrite (hv : key v = k) :
    lookup key x (rewrite key k v l) =
      if x = k then (lookup key k l).map fun _ => v else lookup key x l := by
  induction l with
  | nil => simp [rewrite, lookup]
  | cons w l ih =>
    rw [rewrite]
    by_cases hw : key w = k
    · simp only [if_pos hw, lookup_cons, hv]
      by_cases hx : x = k
      · simp [hx]
      · simp [hx, Ne.symm hx, hw]
    · simp only [if_neg hw, lookup_cons, ih]
      by_cases hx : x = k
      · simp [hx, hw]
      · simp [hx]

theorem map_key_rewrite (hv : key v = k) : (rewrite key k v l).map key = l.map key := by
  induction l with
  | nil => rfl
  | cons w l ih =>
    rw [rewrite]
    by_cases hw : key w = k
    · simp [hw, hv]
    · simp [hw, ih]

/-- What a rewriting keeps of the element that it replaces, it keeps of the list. -/
theorem map_rewrite_of_lookup {α : Type*} {f : V → α} (hw : lookup key k l = some w)
    (hf : f v = f w) : (rewrite key k v l).map f = l.map f := by
  induction l with
  | nil => cases hw
  | cons u l ih =>
    rw [lookup_cons] at hw
    rw [rewrite]
    by_cases hu : key u = k
    · rw [if_pos hu] at hw
      obtain rfl := Option.some.inj hw
      rw [if_pos hu, List.map_cons, List.map_cons, hf]
    · rw [if_neg hu] at hw
      rw [if_neg hu, List.map_cons, List.map_cons, ih hw]

theorem mem_rewrite_self (hv : key v = k) (hw : lookup key k l = some w) :
    v ∈ rewrite key k v l := by
  have hself : lookup key k (rewrite key k v l) = some v := by
    rw [lookup_rewrite hv, if_pos rfl, hw]
    rfl
  exact mem_of_lookup hself

/-- Where no key occurs twice, rewriting an element changes the one with its key. -/
theorem rewrite_eq_map {f : V → V} (hl : (l.map key).Nodup) (hw : lookup key k l = some w) :
    rewrite key k (f w) l = l.map fun v => if key v = k then f v else v := by
  induction l with
  | nil => cases hw
  | cons u l ih =>
    rw [List.map_cons, List.nodup_cons] at hl
    rw [lookup_cons] at hw
    rw [rewrite, List.map_cons]
    by_cases hu : key u = k
    · rw [if_pos hu] at hw
      obtain rfl := Option.some.inj hw
      have hrest : l.map (fun v => if key v = k then f v else v) = l.map id := by
        apply List.map_congr_left
        intro v hv
        refine if_neg fun hk => hl.1 ?_
        rw [hu, ← hk]
        exact List.mem_map_of_mem hv
      rw [if_pos hu, if_pos hu, hrest, List.map_id]
    · rw [if_neg hu] at hw
      rw [if_neg hu, if_neg hu, ih hl.2 hw]

theorem mem_of_mem_rewrite (hw : w ∈ rewrite key k v l) : w = v ∨ w ∈ l := by
  induction l with
  | nil => cases hw
  | cons u l ih =>
    rw [rewrite] at hw
    by_cases hu : key u = k
    · rw [if_pos hu] at hw
      rcases List.mem_cons.mp hw with rfl | hw
      · exact Or.inl rfl
      · exact Or.inr (List.mem_cons_of_mem _ hw)
    · rw [if_neg hu] at hw
      rcases List.mem_cons.mp hw with rfl | hw
      · exact Or.inr List.mem_cons_self
      · exact (ih hw).imp_right (List.mem_cons_of_mem _)

theorem mem_rewrite_iff (hl : (l.map key).Nodup) (hw : lookup key k l = some w) (hv : key v = k)
    {u : V} : u ∈ rewrite key k v l ↔ u = v ∨ u ∈ l ∧ key u ≠ k := by
  constructor
  · intro hu
    rw [rewrite_eq_map hl hw (f := fun _ => v), List.mem_map] at hu
    obtain ⟨x, hx, rfl⟩ := hu
    by_cases hk : key x = k
    · exact Or.inl (if_pos hk)
    · rw [if_neg hk]
      exact Or.inr ⟨hx, hk⟩
  · rintro (rfl | ⟨hu, hk⟩)
    · exact mem_rewrite_self hv hw
    · rw [rewrite_eq_map hl hw (f := fun _ => v), List.mem_map]
      exact ⟨u, hu, if_neg hk⟩

/-- Where no key occurs twice, removing the first element with a key removes them all. -/
theorem eraseP_eq_filter (hl : (l.map key).Nodup) (k : K) :
    l.eraseP (fun v => key v = k) = l.filter fun v => key v ≠ k := by
  induction l with
  | nil => rfl
  | cons v l ih =>
    rw [List.map_cons, List.nodup_cons] at hl
    by_cases hv : key v = k
    · rw [List.eraseP_cons_of_pos (by simpa using hv), List.filter_cons_of_neg (by simpa using hv)]
      have hkeep : ∀ w ∈ l, key w ≠ k := by
        intro w hw hk
        rw [hv, ← hk] at hl
        exact hl.1 (List.mem_map_of_mem hw)
      exact (List.filter_eq_self.mpr fun w hw => decide_eq_true (hkeep w hw)).symm
    · rw [List.eraseP_cons_of_neg (by simpa using hv), List.filter_cons_of_pos (by simpa using hv),
        ih hl.2]

theorem lookup_filter_of_not {p : V → Bool} (hp : ∀ v ∈ l, key v = k → p v = true) :
    lookup key k (l.filter p) = lookup key k l := by
  induction l with
  | nil => rfl
  | cons w l ih =>
    have ih := ih fun v hv => hp v (List.mem_cons_of_mem _ hv)
    by_cases hw : p w = true
    · rw [List.filter_cons_of_pos hw, lookup_cons, lookup_cons, ih]
    · rw [List.filter_cons_of_neg hw, lookup_cons, ih,
        if_neg fun hk => hw (hp w List.mem_cons_self hk)]

section Numbered

variable {num : V → ℕ} {i n : ℕ}

def Numbered (num : V → ℕ) (l : List V) : Prop := ∀ i v, l[i]? = some v → num v = i

theorem Numbered.map_eq_range (h : Numbered num l) : l.map num = List.range l.length := by
  apply List.ext_getElem
  · rw [List.length_map, List.length_range]
  · intro i hi _
    rw [List.length_map] at hi
    rw [List.getElem_map, List.getElem_range]
    exact h i l[i] (List.getElem?_eq_getElem hi)

theorem Numbered.nodup (h : Numbered num l) : (l.map num).Nodup := by
  rw [h.map_eq_range]
  exact List.nodup_range

theorem Numbered.lookup_eq (h : Numbered num l) (n : ℕ) : lookup num n l = l[n]? := by
  cases hget : l[n]? with
  | none =>
    rw [lookup_eq_none, h.map_eq_range, List.mem_range, Nat.not_lt]
    exact List.getElem?_eq_none_iff.mp hget
  | some v => exact (lookup_eq_some h.nodup).mpr ⟨List.mem_of_getElem? hget, h n v hget⟩

theorem Numbered.getElem?_rewrite (h : Numbered num l) (hw : l[n]? = some w) :
    (rewrite num n v l)[i]? = if i = n then some v else l[i]? := by
  rw [← h.lookup_eq] at hw
  rw [rewrite_eq_map h.nodup hw (f := fun _ => v), List.getElem?_map]
  cases hget : l[i]? with
  | none =>
    by_cases hi : i = n
    · rw [h.lookup_eq, ← hi, hget] at hw
      cases hw
    · rw [if_neg hi, Option.map_none]
  | some u =>
    rw [Option.map_some, h i u hget]
    by_cases hi : i = n
    · rw [if_pos hi, if_pos hi]
    · rw [if_neg hi, if_neg hi]

end Numbered

structure Represents (key : V → K) (m : KeyedStore K V) (ks : List K) (l : List V) : Prop where
  keys : ks = l.map key
  nodup : (l.map key).Nodup
  get (k : K) : m.get k = lookup key k l

namespace Represents

variable {m : KeyedStore K V} {ks : List K}

theorem empty : Represents key (KeyedStore.empty : KeyedStore K V) [] [] :=
  ⟨rfl, List.nodup_nil, fun _ => rfl⟩

/-- An element under a new key is appended on the one side and written on the other. -/
theorem push (h : Represents key m ks l) (hv : lookup key (key v) l = none) :
    Represents key (m.set (key v) v) (ks ++ [key v]) (l ++ [v]) where
  keys := by simp [h.keys]
  nodup := by
    rw [List.map_append, List.map_singleton, List.nodup_append]
    refine ⟨h.nodup, List.nodup_singleton _, ?_⟩
    intro a ha b hb
    rw [List.mem_singleton.mp hb]
    rintro rfl
    exact lookup_eq_none.mp hv ha
  get k := by
    rw [KeyedStore.get_set, lookup_append, lookup_singleton, h.get]
    by_cases hk : k = key v
    · rw [if_pos hk, if_pos hk.symm, hk, hv, Option.none_or]
    · rw [if_neg hk, if_neg (Ne.symm hk), Option.or_none]

/-- The element under a key in use is replaced on both sides. -/
theorem rewrite (h : Represents key m ks l) (hw : lookup key k l = some w) (hv : key v = k) :
    Represents key (m.set k v) ks (KeyedList.rewrite key k v l) where
  keys := by rw [h.keys, map_key_rewrite hv]
  nodup := by
    rw [map_key_rewrite hv]
    exact h.nodup
  get x := by
    rw [KeyedStore.get_set, lookup_rewrite hv, h.get, hw, Option.map_some]

/-- The elements under a key are taken out on both sides. -/
theorem remove (h : Represents key m ks l) (k : K) :
    Represents key (m.remove k) (ks.filter (· ≠ k)) (l.filter fun v => key v ≠ k) where
  keys := by rw [h.keys, List.filter_map]; rfl
  nodup := (List.filter_sublist.map key).nodup h.nodup
  get x := by
    rw [KeyedStore.get_remove, h.get]
    by_cases hx : x = k
    · have hgone : k ∉ (l.filter fun v => key v ≠ k).map key := by simp
      rw [if_pos hx, hx, lookup_eq_none.mpr hgone]
    · rw [if_neg hx, lookup_filter_of_not]
      intro v _ hv
      rw [hv]
      exact decide_eq_true hx

theorem has_eq (h : Represents key m ks l) (k : K) : m.has k = decide (k ∈ ks) := by
  rw [KeyedStore.has, h.get, h.keys]
  cases hk : lookup key k l with
  | none => exact (decide_eq_false (lookup_eq_none.mp hk)).symm
  | some v =>
    refine (decide_eq_true ?_).symm
    rw [← key_of_lookup hk]
    exact List.mem_map_of_mem (mem_of_lookup hk)

theorem filterMap_get (h : Represents key m ks l) : ks.filterMap m.get = l := by
  rw [h.keys, List.filterMap_map]
  have hread (v : V) (hv : v ∈ l) : (m.get ∘ key) v = some v := by
    rw [Function.comp_apply, h.get, lookup_key h.nodup hv]
  rw [List.filterMap_congr hread, List.filterMap_some]

theorem mem_filterMap_get (h : Represents key m ks l) {read : List K} :
    v ∈ read.filterMap m.get ↔ v ∈ l ∧ key v ∈ read := by
  simp only [List.mem_filterMap, h.get, lookup_eq_some h.nodup]
  constructor
  · rintro ⟨k, hk, hv, rfl⟩
    exact ⟨hv, hk⟩
  · rintro ⟨hv, hk⟩
    exact ⟨key v, hk, hv, rfl⟩

variable [LE K] [LT K] [DecidableLE K] [Std.IsLinearOrder K] [Std.LawfulOrderLT K]

/-- Reading the store at ascending keys gives the elements with these keys, sorted by key. -/
theorem filterMap_get_eq_mergeSort (h : Represents key m ks l) {read : List K}
    (hread : read.Pairwise (· < ·)) :
    read.filterMap m.get = (l.filter fun v => key v ∈ read).mergeSort fun a b => key a ≤ key b := by
  have hkey {k : K} {v : V} (hv : m.get k = some v) : key v = k := by
    rw [h.get] at hv
    exact key_of_lookup hv
  have hstrict : (read.filterMap m.get).Pairwise fun a b => key a < key b := by
    rw [List.pairwise_filterMap]
    apply hread.imp
    intro a b hab v hv w hw
    rwa [hkey hv, hkey hw]
  have hnodup : (read.filterMap m.get).Nodup := by
    apply hstrict.imp
    rintro v w hvw rfl
    exact Std.lt_irrefl hvw
  apply @List.Perm.eq_of_pairwise _ fun a b => key a ≤ key b
  · intro a b ha hb hab hba
    have hsame := Std.le_antisymm hab hba
    have ha := lookup_key h.nodup (h.mem_filterMap_get.mp ha).1
    have hb := lookup_key h.nodup (List.mem_of_mem_filter (List.mem_mergeSort.mp hb))
    rw [hsame, hb] at ha
    exact (Option.some.inj ha).symm
  · exact hstrict.imp fun hlt => Std.le_of_lt hlt
  · have hsorted := @List.pairwise_mergeSort _ (fun a b : V => decide (key a ≤ key b))
      (fun a b c hab hbc => by
        simp only [decide_eq_true_eq] at hab hbc ⊢
        exact Std.le_trans hab hbc)
      (fun a b => by simpa using Std.le_total) (l.filter fun v => key v ∈ read)
    exact hsorted.imp fun hle => of_decide_eq_true hle
  · apply List.Perm.trans _ (List.mergeSort_perm _ _).symm
    rw [List.perm_ext_iff_of_nodup hnodup (h.nodup.of_map.filter _)]
    intro v
    rw [h.mem_filterMap_get]
    simp

end Represents

/-- The keys are distinct when none of them has come before. -/
theorem nodup_map_iff {α β : Type*} {f : α → β} {l : List α} : (l.map f).Nodup ↔
    ∀ before a after, l = before ++ a :: after → f a ∉ before.map f := by
  constructor
  · rintro h before a after rfl hmem
    rw [List.map_append, List.map_cons] at h
    exact List.disjoint_of_nodup_append h hmem List.mem_cons_self
  · intro h
    induction l using List.reverseRecOn with
    | nil => exact List.nodup_nil
    | append_singleton l a ih =>
      rw [List.map_append, List.map_singleton]
      apply List.Nodup.append
      · refine ih fun before b after hl => h before b (after ++ [a]) ?_
        rw [hl, List.append_assoc, List.cons_append]
      · exact List.nodup_singleton _
      · exact List.disjoint_singleton.mpr (h l a [] rfl)

/-! ### First occurrences -/

section Unseen

variable {α : Type*} [DecidableEq α] {seen l : List α} {a : α}

/-- Keep the elements that have not been seen before. -/
def retainUnseen : List α → List α → List α
  | _, [] => []
  | seen, a :: l => if a ∈ seen then retainUnseen seen l else a :: retainUnseen (a :: seen) l

theorem mem_retainUnseen : a ∈ retainUnseen seen l ↔ a ∈ l ∧ a ∉ seen := by
  induction l generalizing seen with
  | nil => simp [retainUnseen]
  | cons b l ih =>
    unfold retainUnseen
    by_cases hb : b ∈ seen
    · rw [if_pos hb, ih, List.mem_cons]
      constructor
      · rintro ⟨hl, hseen⟩
        exact ⟨Or.inr hl, hseen⟩
      · rintro ⟨rfl | hl, hseen⟩
        · exact absurd hb hseen
        · exact ⟨hl, hseen⟩
    · rw [if_neg hb, List.mem_cons, ih, List.mem_cons]
      by_cases hab : a = b
      · subst hab
        simp [hb]
      · simp [hab]

/-- What is kept stands in the order of the first occurrences. -/
theorem pairwise_retainUnseen (seen l : List α) :
    (retainUnseen seen l).Pairwise fun a b => l.idxOf a < l.idxOf b := by
  have hlater : ∀ {seen l : List α} {b : α}, b ∈ seen →
      (retainUnseen seen l).Pairwise (fun a c => l.idxOf a < l.idxOf c) →
      (retainUnseen seen l).Pairwise fun a c => (b :: l).idxOf a < (b :: l).idxOf c := by
    intro seen l b hb h
    refine h.imp_of_mem fun {a c} ha hc hlt => ?_
    have hne : ∀ {x}, x ∈ retainUnseen seen l → b ≠ x := by
      rintro x hx rfl
      exact (mem_retainUnseen.mp hx).2 hb
    rw [List.idxOf_cons_ne _ (hne ha), List.idxOf_cons_ne _ (hne hc)]
    exact Nat.succ_lt_succ hlt
  induction l generalizing seen with
  | nil => exact List.Pairwise.nil
  | cons b l ih =>
    unfold retainUnseen
    by_cases hb : b ∈ seen
    · rw [if_pos hb]
      exact hlater hb (ih seen)
    · rw [if_neg hb, List.pairwise_cons]
      refine ⟨fun a ha => ?_, hlater List.mem_cons_self (ih (b :: seen))⟩
      have hne : b ≠ a := by
        rintro rfl
        exact (mem_retainUnseen.mp ha).2 List.mem_cons_self
      rw [List.idxOf_cons_self, List.idxOf_cons_ne _ hne]
      exact Nat.succ_pos _

end Unseen

end KeyedList
