import Mathlib.Data.List.Basic

/-!
# Reading a list page by page

A reader answers an offset with a page, and the page says at which offset to go on, if at all. When
the pages are consecutive pieces of one list, following them to the end reads that list once.
-/

namespace Paging

variable {Offset Page α : Type*}

/-- Read the page at an offset and all that follow it, `fuel` pages at most. -/
def follow (read : Offset → Option Page) (next : Page → Option Offset) :
    ℕ → Offset → Option (List Page)
  | 0, _ => none
  | fuel + 1, offset =>
    match read offset with
    | none => none
    | some page =>
      match next page with
      | none => some [page]
      | some later => (follow read next fuel later).map (page :: ·)

/-- The pages are pieces of `xs` of at most `limit` elements, each with the elements from its
position on, and the last page is the one that reaches the end. -/
structure Cuts (read : Offset → Option Page) (next : Page → Option Offset)
    (contents : Page → List α) (position : Offset → ℕ) (xs : List α) (limit : ℕ) : Prop where
  limit_pos : 0 < limit
  page : ∀ offset, position offset ≤ xs.length → ∃ page, read offset = some page ∧
    contents page = (xs.drop (position offset)).take limit ∧
    (next page = none → xs.length ≤ position offset + limit) ∧
    ∀ later, next page = some later →
      position later = position offset + limit ∧ position offset + limit < xs.length

/-- The pages from an offset on come to an end, and hold the rest of the list in its order. -/
structure Reads (read : Offset → Option Page) (next : Page → Option Offset)
    (contents : Page → List α) (offset : Offset) (rest : List α) (limit : ℕ)
    (pages : List Page) : Prop where
  follow_eq : ∀ fuel, pages.length ≤ fuel → follow read next fuel offset = some pages
  flatMap_eq : pages.flatMap contents = rest
  length_le : ∀ page ∈ pages, (contents page).length ≤ limit

variable {read : Offset → Option Page} {next : Page → Option Offset} {contents : Page → List α}
  {position : Offset → ℕ} {xs rest : List α} {limit : ℕ} {offset later : Offset} {page : Page}
  {pages : List Page}

theorem Reads.last (hread : read offset = some page) (hnext : next page = none)
    (hcontents : (contents page).length ≤ limit) :
    Reads read next contents offset (contents page) limit [page] where
  follow_eq := by
    intro fuel hfuel
    obtain ⟨n, rfl⟩ : ∃ n, fuel = n + 1 := ⟨fuel - 1, by simp at hfuel; omega⟩
    rw [follow, hread]
    dsimp only
    rw [hnext]
  flatMap_eq := by simp
  length_le := by simpa using hcontents

theorem Reads.cons (h : Reads read next contents later rest limit pages)
    (hread : read offset = some page) (hnext : next page = some later)
    (hcontents : (contents page).length ≤ limit) :
    Reads read next contents offset (contents page ++ rest) limit (page :: pages) where
  follow_eq := by
    intro fuel hfuel
    rw [List.length_cons] at hfuel
    obtain ⟨n, rfl⟩ : ∃ n, fuel = n + 1 := ⟨fuel - 1, by omega⟩
    rw [follow, hread]
    dsimp only
    rw [hnext]
    dsimp only
    rw [h.follow_eq n (by omega), Option.map_some]
  flatMap_eq := by rw [List.flatMap_cons, h.flatMap_eq]
  length_le := List.forall_mem_cons.mpr ⟨hcontents, h.length_le⟩

theorem Cuts.reads (h : Cuts read next contents position xs limit)
    (hoffset : position offset ≤ xs.length) :
    ∃ pages, Reads read next contents offset (xs.drop (position offset)) limit pages := by
  -- each page that is not the last leaves a shorter rest
  induction hrest : xs.length - position offset using Nat.strongRecOn generalizing offset with
  | ind n ih =>
    obtain ⟨page, hread, hcontents, hlast, hlater⟩ := h.page offset hoffset
    have hlimit := h.limit_pos
    have hlength : (contents page).length ≤ limit := by
      rw [hcontents]
      exact List.length_take_le _ _
    cases hnext : next page with
    | none =>
      have hall : contents page = xs.drop (position offset) := by
        rw [hcontents, List.take_of_length_le]
        rw [List.length_drop]
        have := hlast hnext
        omega
      rw [← hall]
      exact ⟨[page], .last hread hnext hlength⟩
    | some later =>
      obtain ⟨hposition, hmore⟩ := hlater later hnext
      obtain ⟨pages, hpages⟩ := ih (xs.length - position later) (by omega) (by omega) rfl
      have hsplit : xs.drop (position offset) = contents page ++ xs.drop (position later) := by
        rw [hcontents, hposition, ← List.drop_drop, List.take_append_drop]
      rw [hsplit]
      exact ⟨page :: pages, hpages.cons hread hnext hlength⟩

end Paging
