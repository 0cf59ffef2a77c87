import Mathlib.Data.List.Basic
import Mathlib.Order.Nat

namespace Broadcast

variable (capacity : ℕ)

/-- How a receiver goes on that takes the item `next` of the `sent` there are: it takes an item or,
when it lagged, none, and has the number after it. Without an item it waits. -/
abbrev Receiver := (sent next : ℕ) → Option (Option ℕ × ℕ)

/-- What is relied on: a receiver that lagged goes on with the oldest item that is still held. -/
structure Lawful (receiver : Receiver) : Prop where
  lags : ∀ sent next, next + capacity < sent → receiver sent next = some (none, sent - capacity)
  takes : ∀ sent next, next < sent → sent ≤ next + capacity →
    receiver sent next = some (some next, next + 1)
  waits : ∀ sent, receiver sent sent = none

/-- A receiver that keeps nothing but its number. -/
def cursor : Receiver := fun sent next =>
  if next + capacity < sent then some (none, sent - capacity)
  else if next < sent then some (some next, next + 1)
  else none

theorem cursor_lawful : Lawful capacity (cursor capacity) where
  lags := fun _ _ hlag => if_pos hlag
  takes := by
    intro sent next hnext hheld
    rw [cursor, if_neg (not_lt.mpr hheld), if_pos hnext]
  waits := by
    intro sent
    rw [cursor, if_neg (by omega), if_neg (lt_irrefl sent)]

/-- A receiver made after `start` items that has taken those in `seen`: in order, each once, and
what it missed is older than the capacity. -/
structure Follows (start sent next : ℕ) (seen : List ℕ) : Prop where
  start_le : start ≤ next
  next_le : next ≤ sent
  sorted : seen.Pairwise (· < ·)
  within : ∀ i ∈ seen, start ≤ i ∧ i < next
  missed : ∀ i, start ≤ i → i < next → i ∉ seen → i + capacity < sent

variable {capacity} {receiver : Receiver} {start sent next : ℕ} {seen : List ℕ}

theorem follows_new (h : start ≤ sent) : Follows capacity start sent start [] where
  start_le := le_rfl
  next_le := h
  sorted := List.Pairwise.nil
  within := by simp
  missed := by
    intro i hstart hnext
    omega

theorem Follows.send (h : Follows capacity start sent next seen) :
    Follows capacity start (sent + 1) next seen where
  start_le := h.start_le
  next_le := Nat.le_succ_of_le h.next_le
  sorted := h.sorted
  within := h.within
  missed := by
    intro i hstart hnext hseen
    have hold := h.missed i hstart hnext hseen
    omega

theorem Follows.lag (h : Follows capacity start sent next seen) (hlag : next + capacity < sent) :
    Follows capacity start sent (sent - capacity) seen where
  start_le := by
    have hstart := h.start_le
    omega
  next_le := Nat.sub_le sent capacity
  sorted := h.sorted
  within := by
    intro i hi
    obtain ⟨hstart, hnext⟩ := h.within i hi
    exact ⟨hstart, by omega⟩
  missed := by
    intro i _ hi _
    omega

theorem Follows.take (h : Follows capacity start sent next seen) (hnext : next < sent) :
    Follows capacity start sent (next + 1) (seen ++ [next]) where
  start_le := Nat.le_succ_of_le h.start_le
  next_le := hnext
  sorted := by
    apply List.pairwise_append.mpr
    refine ⟨h.sorted, List.pairwise_singleton _ _, ?_⟩
    intro i hi j hj
    rw [List.mem_singleton.mp hj]
    exact (h.within i hi).2
  within := by
    intro i hi
    rcases List.mem_append.mp hi with hold | hnew
    · obtain ⟨hstart, hlt⟩ := h.within i hold
      exact ⟨hstart, Nat.lt_succ_of_lt hlt⟩
    · rw [List.mem_singleton.mp hnew]
      exact ⟨h.start_le, Nat.lt_succ_self next⟩
  missed := by
    intro i hstart hi hseen
    rw [List.mem_append, List.mem_singleton, not_or] at hseen
    obtain ⟨hold, hne⟩ := hseen
    exact h.missed i hstart (by omega) hold

/-- A receiver that has not fallen behind takes the next item. -/
theorem Lawful.recv_prompt (hlawful : Lawful capacity receiver) (hle : next ≤ sent)
    (h : sent ≤ next + capacity) {item : Option ℕ} {next' : ℕ}
    (htaken : receiver sent next = some (item, next')) :
    next < sent ∧ item = some next ∧ next' = next + 1 := by
  have hlt : next < sent := by
    apply lt_of_le_of_ne hle
    rintro rfl
    rw [hlawful.waits] at htaken
    cases htaken
  rw [hlawful.takes sent next hlt h] at htaken
  obtain ⟨hitem, hnext⟩ := Prod.mk.inj (Option.some.inj htaken)
  exact ⟨hlt, hitem.symm, hnext.symm⟩

/-- A receiver goes on as it was, whether it lagged or not. -/
theorem Follows.recv (h : Follows capacity start sent next seen)
    (hlawful : Lawful capacity receiver) {item : Option ℕ} {next' : ℕ}
    (htaken : receiver sent next = some (item, next')) :
    Follows capacity start sent next' (seen ++ item.toList) := by
  by_cases hlag : next + capacity < sent
  · rw [hlawful.lags sent next hlag] at htaken
    obtain ⟨rfl, rfl⟩ := Prod.mk.inj (Option.some.inj htaken)
    simpa using h.lag hlag
  · obtain ⟨hnext, rfl, rfl⟩ := hlawful.recv_prompt h.next_le (not_lt.mp hlag) htaken
    exact h.take hnext

end Broadcast
