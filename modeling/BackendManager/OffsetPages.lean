import Mathlib.Data.List.Nodup
import Mathlib.Data.List.Perm.Subperm
import Mathlib.Order.Lattice

/-!
# Pages by Offset over a Growing Collection

A client reads a collection in pages, the greatest keys first, while elements are added at any
place of the order. Each page is cut from an answer of its own, which lists what is stored at that
moment; elements with equal keys may stand in another order in each answer. Nothing here names a
particular program.

An element whose key nobody shares has a place that is the number of greater keys. That number never
decreases, so that the element cannot move past the next page towards the front: what a page has not
shown is still ahead of the client.

A walk ends with a page that is not full. The element is on no page only if its place is beyond
all of them, and then the last page would have been full; this is the whole argument, by
induction over the pages with the offset as the number of elements shown so far. An element
whose key another one shares may change places with it between two answers, and be missed: the
hypothesis that its key is its own (`Alone`) cannot be dropped.

## Main results

* `mem_page_iff`: when a page shows an element.
* `exists_page_of_reads`: no element is missed.
-/

namespace OffsetPages

variable {α κ : Type*} [LinearOrder κ] {key : α → κ}

/-- An answer: what is stored at a moment, the greatest keys first. -/
structure Answer (key : α → κ) where
  listed : List α
  nodup : listed.Nodup
  sorted : listed.Pairwise fun a b => key b ≤ key a

/-- A page. -/
def page (limit offset : ℕ) (listed : List α) : List α := (listed.drop offset).take limit

/-- The pages of a client that goes on where the last page has ended. -/
def pages (limit : ℕ) : ℕ → List (Answer key) → List (List α)
  | _, [] => []
  | offset, answer :: answers =>
      page limit offset answer.listed :: pages limit (offset + limit) answers

/-- Nothing is removed from one answer to the next. -/
def Growing : List (Answer key) → Prop := List.Pairwise fun a b => a.listed ⊆ b.listed

/-- No other element has the key of `a`. -/
def Alone (key : α → κ) (stored : List α) (a : α) : Prop := ∀ b ∈ stored, key b = key a → b = a

/-- The number of the elements in front of `a`. -/
def ahead (key : α → κ) (stored : List α) (a : α) : ℕ := stored.countP fun b => key a < key b

variable {answer answer' : Answer key} {answers : List (Answer key)} {limit offset : ℕ} {a : α}

/-- The place of an element. -/
theorem listed_eq (ha : a ∈ answer.listed) (halone : Alone key answer.listed a) :
    ∃ before after, answer.listed = before ++ a :: after ∧
      before.length = ahead key answer.listed a := by
  obtain ⟨before, after, hlisted⟩ := List.append_of_mem ha
  have hsorted := answer.sorted
  have hnodup := answer.nodup
  rw [hlisted] at hsorted hnodup halone ⊢
  obtain ⟨-, hafter, hbefore⟩ := List.pairwise_append.mp hsorted
  obtain ⟨-, -, hapart⟩ := List.nodup_append.mp hnodup
  have hfront : ∀ b ∈ before, key a < key b := by
    intro b hb
    refine lt_of_le_of_ne (hbefore b hb a List.mem_cons_self) fun hkey => ?_
    have hsame := halone b (List.mem_append_left _ hb) hkey.symm
    exact hapart b hb a List.mem_cons_self hsame
  have hback : ∀ b ∈ a :: after, ¬ key a < key b := by
    intro b hb
    rcases List.mem_cons.mp hb with rfl | hb
    · exact lt_irrefl _
    · exact not_lt_of_ge ((List.pairwise_cons.mp hafter).1 b hb)
  refine ⟨before, after, rfl, ?_⟩
  rw [ahead, List.countP_append, List.countP_eq_length.mpr fun b hb => decide_eq_true (hfront b hb),
    List.countP_eq_zero.mpr fun b hb => by simpa using hback b hb, Nat.add_zero]

/-- **When a page shows an element.** -/
theorem mem_page_iff (ha : a ∈ answer.listed) (halone : Alone key answer.listed a) :
    a ∈ page limit offset answer.listed ↔
      offset ≤ ahead key answer.listed a ∧ ahead key answer.listed a < offset + limit := by
  obtain ⟨before, after, hlisted, hahead⟩ := listed_eq ha halone
  have hnodup := answer.nodup
  rw [page, ← hahead]
  rw [hlisted] at hnodup ⊢
  constructor
  · intro hmem
    obtain ⟨i, hi, hget⟩ := List.getElem_of_mem hmem
    rw [List.length_take, List.length_drop] at hi
    rw [List.getElem_take, List.getElem_drop] at hget
    have hlength : before.length < (before ++ a :: after).length := by simp
    have hplace : (before ++ a :: after)[before.length] = a := by simp
    have hindex : offset + i = before.length :=
      hnodup.getElem_inj_iff.mp (hget.trans hplace.symm)
    omega
  · rintro ⟨hle, hlt⟩
    refine List.mem_iff_getElem.mpr ⟨before.length - offset, ?_, ?_⟩
    · simp only [List.length_take, List.length_drop, List.length_append, List.length_cons]
      omega
    · rw [List.getElem_take, List.getElem_drop]
      simp [Nat.add_sub_cancel' hle]

/-- Additions push an element back. -/
theorem ahead_le (h : answer.listed ⊆ answer'.listed) (a : α) :
    ahead key answer.listed a ≤ ahead key answer'.listed a :=
  (List.subperm_of_subset answer.nodup h).countP_le _

/-- An element has its place within the collection. -/
theorem ahead_lt (ha : a ∈ answer.listed) (halone : Alone key answer.listed a) :
    ahead key answer.listed a < answer.listed.length := by
  obtain ⟨before, after, hlisted, hlength⟩ := listed_eq ha halone
  rw [← hlength, hlisted, List.length_append, List.length_cons]
  omega

/-- **No element is missed**: what is stored from the first answer on is on one of the pages, if the
client has read on to a page that is not full. -/
theorem exists_page_of_reads (hgrowing : Growing (answer :: answers))
    (ha : a ∈ answer.listed)
    (halone : ∀ answer' ∈ answer :: answers, Alone key answer'.listed a)
    (hoffset : offset ≤ ahead key answer.listed a)
    (hlast : ∀ page ∈ (pages limit offset (answer :: answers)).getLast?, page.length < limit) :
    ∃ page ∈ pages limit offset (answer :: answers), a ∈ page := by
  induction answers generalizing answer offset with
  | nil =>
      have hshort : (page limit offset answer.listed).length < limit := hlast _ rfl
      have hlt := ahead_lt ha (halone answer List.mem_cons_self)
      rw [page, List.length_take, List.length_drop] at hshort
      refine ⟨_, List.mem_cons_self, (mem_page_iff ha (halone answer List.mem_cons_self)).mpr ?_⟩
      omega
  | cons next answers ih =>
      by_cases hhere : ahead key answer.listed a < offset + limit
      · exact ⟨_, List.mem_cons_self,
          (mem_page_iff ha (halone answer List.mem_cons_self)).mpr ⟨hoffset, hhere⟩⟩
      · obtain ⟨hsubset, hrest⟩ := List.pairwise_cons.mp hgrowing
        have hstep := hsubset next List.mem_cons_self
        have hle := Nat.le_trans (Nat.le_of_not_lt hhere) (ahead_le hstep a)
        obtain ⟨page, hpage, hmem⟩ := ih hrest (hstep ha)
          (fun answer' h => halone answer' (List.mem_cons_of_mem _ h)) hle hlast
        exact ⟨page, List.mem_cons_of_mem _ hpage, hmem⟩

end OffsetPages
