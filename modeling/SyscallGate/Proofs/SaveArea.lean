/-
# A save area is a stack

The words in use of a save area are a stack of at most four: a push puts a word
on top, a pop takes the top one, and only the empty stack passes for empty. A
push on four words is a fault, and so is a pop of none. Whether a word was left
over from an earlier pop does not matter, so a stack is all there is to know
about an area.

Key definitions: `SaveArea.Holds`.
Key theorems: `SaveArea.holds_empty`, `SaveArea.push_of_holds`,
`SaveArea.push_of_full`, `SaveArea.pop_of_holds`, `SaveArea.pop_of_holds_nil`,
`SaveArea.expectEmpty_of_holds`.
-/
import SyscallGate.SaveArea

namespace SyscallGate
namespace SaveArea

/-- The words in use are these, the one saved last in front. -/
structure Holds (area : SaveArea) (saved : List UInt64) : Prop where
  used : area.used = saved.length
  words : area.words.toList.take area.used = saved.reverse

theorem holds_empty : Holds empty [] := ⟨rfl, rfl⟩

theorem Holds.length_le {area : SaveArea} {saved : List UInt64} (h : Holds area saved) :
    saved.length ≤ 4 := by
  have := congrArg List.length h.words
  simp only [List.length_take, Vector.length_toList, List.length_reverse] at this
  omega

/-- While there is room a push succeeds, and puts the word on top. -/
theorem push_of_holds {area : SaveArea} {saved : List UInt64} (word : UInt64) (h : Holds area saved)
    (room : saved.length < 4) :
    ∃ after, area.push word = .ok after ∧ Holds after (word :: saved) := by
  have hlt : area.used < 4 := h.used ▸ room
  refine ⟨⟨area.words.set area.used word hlt, area.used + 1⟩, dif_pos hlt, ?_, ?_⟩
  · exact congrArg (· + 1) h.used
  · rw [List.reverse_cons, ← h.words]
    simp only [Vector.toList_set]
    rw [List.take_add_one, List.take_set_of_le (Nat.le_refl _)]
    simp [hlt]

theorem push_of_full {area : SaveArea} {saved : List UInt64} (word : UInt64) (h : Holds area saved)
    (full : 4 ≤ saved.length) : area.push word = .error (.outOfBounds 4 4) := by
  have hused : area.used = 4 := h.used.trans (Nat.le_antisymm h.length_le full)
  rw [push, dif_neg (by omega), hused]
  rfl

/-- A pop gives the word on top, and leaves the others. -/
theorem pop_of_holds {area : SaveArea} {word : UInt64} {saved : List UInt64}
    (h : Holds area (word :: saved)) :
    ∃ after, area.pop = .ok (word, after) ∧ Holds after saved := by
  have hroom : saved.length < 4 := h.length_le
  obtain ⟨words, used⟩ := area
  obtain ⟨rfl, hw⟩ := h
  simp only [List.length_cons, List.reverse_cons, List.take_add_one] at hw
  have hget : words[saved.length]? = some words[saved.length] := by simp [hroom]
  have hlist : words.toList[saved.length]? = some words[saved.length] := by simp [hroom]
  rw [hlist, Option.toList_some] at hw
  obtain ⟨hrest, htop⟩ := List.append_inj' hw rfl
  obtain rfl : words[saved.length] = word := by simpa using htop
  refine ⟨⟨words, saved.length⟩, ?_, rfl, hrest⟩
  simp only [pop, List.length_cons, hget]

theorem pop_of_holds_nil {area : SaveArea} (h : Holds area []) : area.pop = .error .subOverflow := by
  obtain ⟨words, used⟩ := area
  obtain ⟨rfl, -⟩ := h
  rfl

theorem isEmpty_of_holds {area : SaveArea} {saved : List UInt64} (h : Holds area saved) :
    area.isEmpty = saved.isEmpty := by
  rw [isEmpty, h.used]
  cases saved <;> rfl

theorem expectEmpty_of_holds {area : SaveArea} (h : Holds area []) : area.expectEmpty = .ok () := by
  rw [expectEmpty, isEmpty_of_holds h]
  rfl

end SaveArea
end SyscallGate
