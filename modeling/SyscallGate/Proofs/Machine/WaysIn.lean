/-
# All ways in come to the same

Whoever serves a call sees it as it was staged, whichever way it came in: a
window hides only what the call does not fill. And whatever is served, the way
takes RAX back. So from the same machine all five ways return the same word and
leave the same machine, and what happened is the same as well, except that the
event of leaving shows more registers on one way than on another
(`ways_agree`). Calls that handlers make in between are no matter: what serves
a call does not see what happened before it.

Key definitions: `Call.ways`, `Machine.Result.Returns`, `Machine.Event.Agrees`,
`Machine.Step.Makes`.
Key theorems: `Machine.Step.Makes.report_run`, `Machine.Step.makes_of_mem_ways`,
`Machine.ways_agree`.
-/
import Mathlib.Data.List.Forall2
import SyscallGate.Proofs.Machine.Past
import SyscallGate.Proofs.Machine.Window

namespace SyscallGate

/-- A word as an operand of the type of words. -/
def Operand.word (word : UInt64) : Operand := ⟨.u64, word.toBitVec⟩

/-- The call with its operands as values of the type of words. -/
def Call.typed (call : Call) : TypedCall where
  id := .word call.id
  arguments := call.arguments.map .word
  length_le := by simpa using call.length_le

theorem Operand.toWord_word (word : UInt64) : (Operand.word word).toWord = word := by
  have hcast : IntType.u64.cast 64 word.toBitVec = word.toBitVec := BitVec.setWidth_eq word.toBitVec
  rw [Operand.word, toWord, IntType.toWord, hcast]

theorem Call.toCall_typed (call : Call) : call.typed.toCall = call := by
  have harguments : (call.arguments.map Operand.word).map Operand.toWord = call.arguments := by
    rw [List.map_map]
    exact List.map_id'' Operand.toWord_word call.arguments
  obtain ⟨id, arguments, hlength⟩ := call
  simp only [typed, TypedCall.toCall, Operand.toWord_word, Call.mk.injEq, true_and]
  exact harguments

/-- The five ways to make a call. -/
def Call.ways (call : Call) : List Machine.Step :=
  [.entryCode call.staged, .route call.staged, .routeImage (some call.staged), .call call,
    .typedCall call.typed]

namespace Machine

/-- A step that returned `word`, wherever it has its results: the registers in
memory hold it too. -/
def Result.Returns (word : UInt64) : Result → Prop
  | registers regs | routed _ regs => regs.rax = word
  | answered ret regs => ret = word.toInt64 ∧ regs.map (·.rax) = some word
  | returned ret => ret = word
  | _ => False

/-- The same thing happened, and a register that both events show is the same. -/
inductive Event.Agrees : Event → Event → Prop
  | same (event : Event) : Agrees event event
  | exit {kind : Exit} {purpose : Purpose} {shown shown' : List (Register × UInt64)} :
      (∀ r word word', (r, word) ∈ shown → (r, word') ∈ shown' → word = word') →
      Agrees (.exit kind purpose shown) (.exit kind purpose shown')

/-- A step that makes a call through these windows: they show what the call
fills, and take back what it returns. -/
structure Step.Makes (step : Step) (call : Call) (window : Exit → Window)
    (finish : Exit × Registers → Result) : Prop where
  through : step.Through window call.staged finish
  shows : ∀ kind, ∀ r ∈ call.filled, r ∈ (window kind).shown
  takes : ∀ kind, .rax ∈ (window kind).taken
  returns : ∀ p, (finish p).Returns p.2.rax

namespace Step

/-- The flags of a staged call are those that the entry code may load. -/
theorem load_staged (call : Call) :
    { call.staged with rflags := Flags.load Flags.idle call.staged.rflags } = call.staged := by
  have hfilled : Register.rflags ∉ call.filled := fun h => by
    rcases List.mem_cons.mp h with heq | hargument
    · exact absurd heq (by decide)
    · exact absurd (List.mem_of_mem_take hargument) (by decide)
  have hflags : call.staged.rflags = Flags.idle := Window.get_staged_of_notMem call hfilled
  rw [hflags, show Flags.load Flags.idle Flags.idle = Flags.idle from by decide, ← hflags]

theorem makes_of_mem_ways {call : Call} {step : Step} (h : step ∈ call.ways) :
    ∃ window finish, step.Makes call window finish := by
  simp only [Call.ways, List.mem_cons, List.not_mem_nil, or_false] at h
  rcases h with rfl | rfl | rfl | rfl | rfl
  · have hthrough := entryCode_through call.staged
    rw [load_staged] at hthrough
    exact ⟨_, _, hthrough, fun _ => Window.filled_whole call, fun _ => by decide, fun _ => rfl⟩
  · exact ⟨_, _, route_through _, Window.filled_ofRoute call, fun kind => by cases kind <;> decide,
      fun _ => rfl⟩
  · exact ⟨_, _, routeImage_through _, Window.filled_ofRoute call, fun kind => by cases kind <;> decide,
      fun _ => ⟨rfl, rfl⟩⟩
  · exact ⟨_, _, call_through call, fun _ _ h => h, fun _ => List.mem_cons_self, fun _ => rfl⟩
  · have hthrough := typedCall_through call.typed
    rw [call.toCall_typed] at hthrough
    exact ⟨_, _, hthrough, fun _ _ h => h, fun _ => List.mem_cons_self, fun _ => rfl⟩

/-- **How a call goes.** Up to where it leaves, and from there on, nothing
depends on the way it came in; the event of leaving shows what its window does. -/
theorem Makes.report_run {step : Step} {call : Call} {window : Exit → Window}
    {finish : Exit × Registers → Result} (h : step.Makes call window finish) {settings : Settings}
    {m near left : Machine} {kind : Exit} {after : Registers}
    (hnear : approach.run (m.afresh.withBudget settings.halts settings.pauses) = (kind, near))
    (hleft : (handle settings (kind.handOver call.staged)).run near.afresh = (after, left)) :
    let leaving := Event.exit kind .call ((window kind).shown.map fun r => (r, call.staged.get r))
    (report settings step).run m =
      (⟨finish (kind, (window kind).takeBack call.staged after),
          near.history.reverse ++ leaving :: left.history.reverse⟩,
        (left.withBudget m.haltsLeft m.pausesLeft).onTop (leaving :: near.history ++ m.history)) := by
  intro leaving
  -- the server sees the same registers through every window, on top of another past
  have hlook : (window kind).look call.staged = call.staged := Window.look_staged (h.shows kind)
  have hasked := approach_onTop m.history (m.afresh.withBudget settings.halts settings.pauses)
  have hserved := handle_onTop (leaving :: near.history ++ m.history) settings
    (kind.handOver call.staged) near.afresh
  rw [hnear] at hasked
  rw [hleft] at hserved
  have hgate : (gate (handle settings) window call.staged).run (m.withBudget settings.halts settings.pauses) =
      ((kind, (window kind).takeBack call.staged after),
        left.onTop (leaving :: near.history ++ m.history)) := by
    rw [gate_run, show approach.run (m.withBudget settings.halts settings.pauses) = _ from hasked]
    simp only [hlook, recording_onTop]
    rw [hserved]
  have hsince : since m.history
      ((left.withBudget m.haltsLeft m.pausesLeft).onTop (leaving :: near.history ++ m.history)).history =
      near.history.reverse ++ leaving :: left.history.reverse := by
    rw [since_onTop, List.reverse_cons, List.append_assoc]
    rfl
  rw [Machine.report_run, runStep_run, h.through, StateT.run_map, hgate, ← hsince]
  rfl

end Step

/-- Lists of events that are equal but for one that shows more on one side. -/
theorem Event.agrees_around {before after : List Event} {kind : Exit} {purpose : Purpose}
    {shown shown' : List (Register × UInt64)}
    (h : ∀ r word word', (r, word) ∈ shown → (r, word') ∈ shown' → word = word') :
    List.Forall₂ Event.Agrees (before ++ .exit kind purpose shown :: after)
      (before ++ .exit kind purpose shown' :: after) := by
  have hsame (events : List Event) : List.Forall₂ Event.Agrees events events :=
    List.forall₂_same.mpr fun event _ => .same event
  exact List.rel_append (hsame before) (.cons (.exit h) (hsame after))

/-- **All ways in agree**, on every machine, whatever its script does. -/
theorem ways_agree (settings : Settings) (m : Machine) (call : Call) :
    ∃ word left, ∀ step ∈ call.ways,
      ((report settings step).run m).1.result.Returns word ∧
      ((report settings step).run m).2.afresh = left ∧
      ∀ step' ∈ call.ways, ((report settings step).run m).1.events.Forall₂ Event.Agrees
        ((report settings step').run m).1.events := by
  rcases hnear : approach.run (m.afresh.withBudget settings.halts settings.pauses) with ⟨kind, near⟩
  rcases hleft : (handle settings (kind.handOver call.staged)).run near.afresh with ⟨after, left⟩
  refine ⟨after.rax, (left.withBudget m.haltsLeft m.pausesLeft).afresh, fun step hstep => ?_⟩
  obtain ⟨window, finish, hmakes⟩ := Step.makes_of_mem_ways hstep
  have hrax : ((window kind).takeBack call.staged after).rax = after.rax := by
    have hget := (window kind).get_takeBack call.staged after (r := .rax) (by decide)
    rw [if_pos (hmakes.takes kind)] at hget
    exact hget
  rw [hmakes.report_run hnear hleft]
  refine ⟨hrax ▸ hmakes.returns _, rfl, fun step' hstep' => ?_⟩
  obtain ⟨window', finish', hmakes'⟩ := Step.makes_of_mem_ways hstep'
  rw [hmakes'.report_run hnear hleft]
  refine Event.agrees_around fun r word word' hword hword' => ?_
  -- both events show the call as it was staged
  obtain ⟨s, -, hs⟩ := List.mem_map.mp hword
  obtain ⟨s', -, hs'⟩ := List.mem_map.mp hword'
  cases hs
  cases hs'
  rfl

end Machine
end SyscallGate
