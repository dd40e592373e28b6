/-
# A save area in use

Words are saved and given back in any order, as long as no more than four are
saved and none is asked for that is not there. Within these bounds every use of an
area succeeds, and outside them one is a fault (`use_of_fits`, `fits_of_use`). What
is given back is what a list would give: a pop belongs to the push before it that
it is balanced with, and has its word (`stacked_matched`). Routing stays within the
bounds on both ways, whatever the processor does in between (`used_as_stack`).

Key definitions: `SaveArea.Use`, `SaveArea.use`, `SaveArea.height`,
`SaveArea.Fits`, `SaveArea.stacked`, `SaveArea.Balanced`.
Key theorems: `SaveArea.use_of_fits`, `SaveArea.fits_of_use`,
`SaveArea.stacked_matched`, `SaveArea.used_as_stack`.
-/
import Mathlib.Algebra.Ring.Int.Defs
import SyscallGate.Proofs.Routing

namespace SyscallGate
namespace SaveArea

/-- One use of a save area. -/
inductive Use where
  | push (word : UInt64)
  | pop
  deriving DecidableEq, Repr

/-- Uses an area, one after the other: the words that it gave back, in order, and
the area after it. -/
def use : SaveArea → List Use → Except Fault (List UInt64 × SaveArea)
  | area, [] => .ok ([], area)
  | area, .push word :: uses => do
    let area ← area.push word
    area.use uses
  | area, .pop :: uses => do
    let (word, area) ← area.pop
    let (words, area) ← area.use uses
    return (word :: words, area)

theorem use_push {area next : SaveArea} {word : UInt64} (hpush : area.push word = .ok next) (uses : List Use) :
    area.use (.push word :: uses) = next.use uses := by
  rw [use, hpush]
  rfl

theorem use_pop {area next : SaveArea} {word : UInt64} (hpop : area.pop = .ok (word, next)) (uses : List Use) :
    area.use (.pop :: uses) = (next.use uses).map fun (words, after) => (word :: words, after) := by
  rw [use, hpop]
  rfl

/-! ### The bounds -/

/-- By how much a use changes the number of saved words. -/
def Use.change : Use → Int
  | push _ => 1
  | pop => -1

/-- How many words were saved and not given back. -/
def height (uses : List Use) : Int := (uses.map Use.change).sum

/-- From `start` saved words on, there are at every moment between none and four. -/
def Fits (start : Int) (uses : List Use) : Prop :=
  ∀ before, before <+: uses → 0 ≤ start + height before ∧ start + height before ≤ 4

theorem height_cons (first : Use) (uses : List Use) : height (first :: uses) = first.change + height uses :=
  List.sum_cons

theorem fits_nil (start : Int) : Fits start [] ↔ 0 ≤ start ∧ start ≤ 4 := by
  have hnil : height [] = 0 := rfl
  constructor
  · intro h
    have hstart := h [] List.nil_prefix
    rwa [hnil, Int.add_zero] at hstart
  · intro h before hbefore
    rwa [List.prefix_nil.mp hbefore, hnil, Int.add_zero]

theorem fits_cons (start : Int) (first : Use) (uses : List Use) :
    Fits start (first :: uses) ↔ (0 ≤ start ∧ start ≤ 4) ∧ Fits (start + first.change) uses := by
  constructor
  · intro h
    refine ⟨(fits_nil start).mp fun before hbefore => ?_, fun before hbefore => ?_⟩
    · exact h before (hbefore.trans List.nil_prefix)
    · have hfirst := h (first :: before) ((List.prefix_cons_inj first).mpr hbefore)
      rwa [height_cons, ← Int.add_assoc] at hfirst
  · rintro ⟨hstart, hrest⟩ before hbefore
    rcases List.prefix_cons_iff.mp hbefore with rfl | ⟨rest, rfl, hprefix⟩
    · exact (fits_nil start).mpr hstart [] List.nil_prefix
    · rw [height_cons, ← Int.add_assoc]
      exact hrest rest hprefix

theorem Fits.start {start : Int} {uses : List Use} (h : Fits start uses) : 0 ≤ start ∧ start ≤ 4 :=
  (fits_nil start).mp fun before hbefore => h before (hbefore.trans List.nil_prefix)

/-! ### The list -/

/-- The same uses of a list, the word saved last in front. An empty list gives
nothing back. -/
def stacked : List UInt64 → List Use → Option (List UInt64 × List UInt64)
  | saved, [] => some ([], saved)
  | saved, .push word :: uses => stacked (word :: saved) uses
  | word :: saved, .pop :: uses => (stacked saved uses).map fun (words, left) => (word :: words, left)
  | [], .pop :: _ => none

/-- **Within the bounds an area is a list**, by induction on its uses. -/
theorem use_of_fits : ∀ (uses : List Use) {area : SaveArea} {saved : List UInt64}, Holds area saved →
    Fits saved.length uses → ∃ words after left, area.use uses = .ok (words, after) ∧
      stacked saved uses = some (words, left) ∧ Holds after left ∧ (left.length : Int) = saved.length + height uses
  | [], area, saved, h, _ => ⟨[], area, saved, rfl, rfl, h, (Int.add_zero _).symm⟩
  | .push word :: uses, area, saved, h, hfits => by
    have hrest : Fits (word :: saved).length uses := ((fits_cons _ _ _).mp hfits).2
    have hroom : saved.length < 4 := by
      have hbound := hrest.start.2
      rw [List.length_cons] at hbound
      omega
    obtain ⟨next, hpush, hnext⟩ := push_of_holds word h hroom
    obtain ⟨words, after, left, huse, hstacked, hleft, hlength⟩ := use_of_fits uses hnext hrest
    refine ⟨words, after, left, (use_push hpush uses).trans huse, hstacked, hleft, ?_⟩
    · rw [hlength, height_cons, List.length_cons, Use.change]
      omega
  | .pop :: uses, area, [], h, hfits => by
    have hbound := ((fits_cons _ _ _).mp hfits).2.start.1
    exact absurd hbound (by decide)
  | .pop :: uses, area, word :: saved, h, hfits => by
    have hrest := ((fits_cons _ _ _).mp hfits).2
    rw [List.length_cons, Use.change, Int.natCast_add, Int.add_assoc] at hrest
    obtain ⟨next, hpop, hnext⟩ := pop_of_holds h
    obtain ⟨words, after, left, huse, hstacked, hleft, hlength⟩ := use_of_fits uses hnext hrest
    refine ⟨word :: words, after, left, ?_, ?_, hleft, ?_⟩
    · rw [use_pop hpop, huse]
      rfl
    · rw [stacked, hstacked]
      rfl
    · rw [hlength, height_cons, List.length_cons, Use.change]
      omega

/-- **Outside the bounds an area fails.** -/
theorem fits_of_use : ∀ (uses : List Use) {area : SaveArea} {saved : List UInt64} {result : List UInt64 × SaveArea},
    Holds area saved → area.use uses = .ok result → Fits saved.length uses
  | [], _, saved, _, h, _ => (fits_nil _).mpr ⟨Int.natCast_nonneg _, by have := h.length_le; omega⟩
  | .push word :: uses, area, saved, result, h, huse => by
    by_cases hroom : saved.length < 4
    · obtain ⟨next, hpush, hnext⟩ := push_of_holds word h hroom
      rw [use_push hpush] at huse
      exact (fits_cons _ _ _).mpr ⟨⟨by omega, by omega⟩, fits_of_use uses hnext huse⟩
    · rw [use, push_of_full word h (by omega)] at huse
      cases huse
  | .pop :: uses, area, [], result, h, huse => by
    rw [use, pop_of_holds_nil h] at huse
    cases huse
  | .pop :: uses, area, word :: saved, result, h, huse => by
    have hsaved := h.length_le
    obtain ⟨next, hpop, hnext⟩ := pop_of_holds h
    rw [use_pop hpop] at huse
    cases hresult : next.use uses with
    | error fault =>
      rw [hresult] at huse
      cases huse
    | ok rest =>
      have hrest := fits_of_use uses hnext hresult
      refine (fits_cons _ _ _).mpr ⟨⟨by omega, by omega⟩, ?_⟩
      rwa [List.length_cons, Use.change, Int.natCast_add, Int.add_assoc]

/-! ### The push that a pop belongs to -/

/-- Uses after which as much is saved as before, and nothing of that was touched. -/
inductive Balanced : List Use → Prop
  | nothing : Balanced []
  | around (word : UInt64) {inner rest : List Use} :
      Balanced inner → Balanced rest → Balanced (.push word :: inner ++ .pop :: rest)

/-- Uses that are balanced but for `depth` pops, which go to what was saved before. -/
inductive Descends : Nat → List Use → Prop
  | level {uses : List Use} : Balanced uses → Descends 0 uses
  | deeper {depth : Nat} {first rest : List Use} :
      Balanced first → Descends depth rest → Descends (depth + 1) (first ++ .pop :: rest)

/-- One more word is saved in front, and the first of these pops gets it. -/
theorem Descends.push (word : UInt64) {depth : Nat} {uses : List Use} (h : Descends (depth + 1) uses) :
    Descends depth (.push word :: uses) := by
  cases h with
  | deeper hfirst hrest =>
    cases hrest with
    | level hbalanced => exact .level (.around word hfirst hbalanced)
    | deeper hnext hlast =>
      have hdown := Descends.deeper (Balanced.around word hfirst hnext) hlast
      rwa [List.append_assoc] at hdown

/-- **A pop has the word of its push**, unless that was saved before: then it goes as
deep as there are more pops than pushes. -/
theorem stacked_matched : ∀ (uses : List Use) {saved words left : List UInt64},
    stacked saved uses = some (words, left) → ∀ {before after : List Use}, uses = before ++ .pop :: after →
      (∃ earlier word between, before = earlier ++ .push word :: between ∧ Balanced between ∧
        words[before.count .pop]? = some word) ∨
      ∃ depth word, Descends depth before ∧ saved[depth]? = some word ∧ words[before.count .pop]? = some word
  | [], _, _, _, _, before, _, huses => absurd huses (by simp)
  | .push word :: uses, saved, words, left, h, [], after, huses => absurd huses (by simp)
  | .push word :: uses, saved, words, left, h, first :: before, after, huses => by
    obtain ⟨rfl, hrest⟩ := List.cons_eq_cons.mp huses
    have hpush : Use.push word ≠ .pop := nofun
    rw [List.count_cons_of_ne hpush]
    rcases stacked_matched uses h hrest with
      ⟨earlier, own, between, rfl, hbetween, hword⟩ | ⟨depth, own, hdown, hsaved, hword⟩
    · exact .inl ⟨_ :: earlier, own, between, rfl, hbetween, hword⟩
    · cases depth with
      | zero =>
        obtain rfl : word = own := Option.some.inj hsaved
        cases hdown with
        | level hbalanced => exact .inl ⟨[], word, before, rfl, hbalanced, hword⟩
      | succ depth => exact .inr ⟨depth, own, hdown.push word, hsaved, hword⟩
  | .pop :: uses, [], _, _, h, _, _, _ => nomatch h
  | .pop :: uses, top :: saved, words, left, h, before, after, huses => by
    obtain ⟨⟨rest, last⟩, hstacked, hwords⟩ := Option.map_eq_some_iff.mp h
    obtain ⟨rfl, rfl⟩ := Prod.mk.inj hwords
    cases before with
    | nil => exact .inr ⟨0, top, .level .nothing, rfl, rfl⟩
    | cons first before =>
      obtain ⟨rfl, hrest⟩ := List.cons_eq_cons.mp huses
      rw [List.count_cons_self]
      rcases stacked_matched uses hstacked hrest with
        ⟨earlier, own, between, rfl, hbetween, hword⟩ | ⟨depth, own, hdown, hsaved, hword⟩
      · exact .inl ⟨.pop :: earlier, own, between, rfl, hbetween, hword⟩
      · exact .inr ⟨depth + 1, own, .deeper .nothing hdown, hsaved, hword⟩

/-- **A save area is a stack of four, and routing needs no more.** Uses of an empty
area come to a result just if at every moment between none and four words are saved.
Then no more than four are in use at the end, as many as were saved and not given
back, so the area is empty if all were; the words that were given back, and those
that are left, are those of a list; and a pop gave back the word of the push that it
is balanced with. Routing on any processor is handing the call over: neither its
save area nor the check that this is empty ever fails. -/
theorem used_as_stack :
    (∀ uses : List Use,
      (Fits 0 uses ↔ ∃ words area, empty.use uses = .ok (words, area)) ∧
      ∀ words area, empty.use uses = .ok (words, area) →
        area.used ≤ 4 ∧ (area.used : Int) = height uses ∧ (area.isEmpty = true ↔ height uses = 0) ∧
        (∃ left, stacked [] uses = some (words, left) ∧ Holds area left) ∧
        ∀ before after, uses = before ++ .pop :: after → ∃ earlier word between,
          before = earlier ++ .push word :: between ∧ Balanced between ∧ words[before.count .pop]? = some word) ∧
    ∀ {m : Type → Type} [Monad m] [LawfulMonad m] (processor : Processor m) (regs : Registers),
      (route processor regs).run = Except.ok <$> processor.passOn regs := by
  refine ⟨fun uses => ⟨⟨fun hfits => ?succeeds, fun ⟨_, _, huse⟩ => fits_of_use uses holds_empty huse⟩,
    fun words area huse => ?result⟩, fun processor regs => route_run processor regs⟩
  case succeeds =>
    obtain ⟨words, area, -, huse, -⟩ := use_of_fits uses holds_empty hfits
    exact ⟨words, area, huse⟩
  case result =>
    obtain ⟨words', area', left, huse', hstacked, hleft, hheight⟩ :=
      use_of_fits uses holds_empty (fits_of_use uses holds_empty huse)
    obtain ⟨rfl, rfl⟩ := Prod.mk.inj (Except.ok.inj (huse.symm.trans huse'))
    have hused : (area.used : Int) = height uses := by
      rw [hleft.used, hheight]
      exact Int.zero_add _
    have hbound : area.used ≤ 4 := hleft.used ▸ hleft.length_le
    have hempty : area.isEmpty = true ↔ area.used = 0 := beq_iff_eq
    refine ⟨hbound, hused, ?_, ⟨left, hstacked, hleft⟩, fun before after huses => ?_⟩
    · rw [hempty]
      omega
    · rcases stacked_matched uses hstacked huses with hmatched | ⟨depth, word, -, hsaved, -⟩
      · exact hmatched
      · cases hsaved

/-- A word that was given back is still in its place, and another is saved over it. The
last pop goes to the first push. And a call in ring 0, all registers in use. -/
theorem used_as_stack_word_left_over :
    let uses : List Use := [.push 1, .push 2, .pop, .push 3, .pop, .pop]
    let area : SaveArea := ⟨#v[1, 3, 0, 0], 0⟩
    let regs : Registers := ⟨39, 1, 2, 3, 4, 5, 6, 7, 8, 0x246⟩
    empty.use uses = .ok ([2, 3, 1], area) ∧ Fits 0 uses ∧ height uses = 0 ∧
      (∃ earlier word between, uses.take 5 = earlier ++ .push word :: between ∧ Balanced between ∧
        ([2, 3, 1] : List UInt64)[2]? = some word) ∧
      ((route (Recorder.processor .bySelector pure) regs).run.run (Recorder.start 0x10 [])).1 =
        .ok (.redirect, regs) := by
  intro uses area regs
  have huse : empty.use uses = .ok ([2, 3, 1], area) := rfl
  obtain ⟨hfits, hresult⟩ := used_as_stack.1 uses
  obtain ⟨-, -, hempty, -, hmatched⟩ := hresult _ _ huse
  refine ⟨huse, hfits.mpr ⟨_, _, huse⟩, hempty.mp rfl, hmatched (uses.take 5) [] rfl, ?_⟩
  rw [used_as_stack.2]
  rfl

end SaveArea
end SyscallGate
