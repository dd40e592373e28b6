/-
# Nothing depends on the past

A machine only adds to its history, and never looks at it. So on top of an older
history everything goes the same way, and leaves the same machine on top of that
older history. The relation is kept by single instructions, and so by whole runs
(`kept_onTop`).

Key definitions: `Machine.onTop`, `Machine.afresh`.
Key theorems: `Machine.kept_onTop`, `Machine.handle_onTop`,
`Machine.approach_onTop`.
-/
import SyscallGate.Proofs.Machine.Instructions

namespace SyscallGate
namespace Machine

/-- The machine with its history on top of an older one. -/
def onTop (m : Machine) (older : List Event) : Machine := { m with history := m.history ++ older }

theorem since_onTop (m : Machine) (added older : List Event) :
    since older (m.onTop (added ++ older)).history = added.reverse ++ m.history.reverse := by
  rw [onTop, ← List.append_assoc, since_append, List.reverse_append]

/-- The machine as if nothing had happened. -/
def afresh (m : Machine) : Machine := { m with history := [] }

theorem recording_onTop (m : Machine) (older : List Event) (event : Event) :
    (m.onTop older).recording event = m.afresh.onTop (event :: m.history ++ older) := rfl

section

variable (older : List Event)

/-- Instructions add to the history on top. -/
theorem instructions_onTop : Instructions fun m n => n = m.onTop older where
  haltsLeft := by rintro m _ rfl; rfl
  pausesLeft := by rintro m _ rfl; rfl
  script := by rintro m _ rfl; rfl
  console := by rintro m _ rfl; rfl
  setHalts := by rintro m _ _ rfl; rfl
  setPauses := by rintro m _ _ rfl; rfl
  setConsole := by rintro m _ _ rfl; rfl
  note := by rintro event - m _ rfl; exact ⟨rfl, rfl⟩
  nextHandler := by
    rintro ⟨selector, msrs, input, written, console, script, haltsLeft, pausesLeft, history⟩ _ rfl
    cases script <;> exact ⟨rfl, rfl⟩
  setSelector := by rintro selector m _ rfl; exact ⟨rfl, rfl⟩
  setMsr := by rintro msr value m _ rfl; exact ⟨rfl, rfl⟩
  readSelector := by rintro m _ rfl; exact ⟨rfl, rfl⟩
  readMsr := by rintro msr m _ rfl; exact ⟨rfl, rfl⟩
  writeMsr := by rintro msr value m _ rfl; exact ⟨rfl, rfl⟩
  portIn := by
    rintro port ⟨selector, msrs, input, written, console, script, haltsLeft, pausesLeft, history⟩ _ rfl
    cases input <;> exact ⟨rfl, rfl⟩
  portOut := by rintro port byte m _ rfl; exact ⟨rfl, rfl⟩

theorem kept_onTop (settings : Settings) : Kept (fun m n => n = m.onTop older) settings settings :=
  (instructions_onTop older).kept settings fun kind purpose shown => by
    rintro m _ rfl
    exact ⟨rfl, rfl⟩

/-- **What serves a call has no use for the past.** -/
theorem handle_onTop (settings : Settings) (regs : Registers) (m : Machine) :
    (handle settings regs).run (m.onTop older) =
      (((handle settings regs).run m).1, ((handle settings regs).run m).2.onTop older) :=
  ((kept_onTop older settings).handle regs).run_map m

theorem approach_onTop (m : Machine) :
    approach.run (m.onTop older) = ((approach.run m).1, (approach.run m).2.onTop older) :=
  (instructions_onTop older).plain.approach.run_map m

end

end Machine
end SyscallGate
