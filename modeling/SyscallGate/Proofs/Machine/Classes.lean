/-
# One class, however it is found

Whether code is in ring 0 is found in three ways: from the selector's bits, from
the ring that they name, and by the entry code, which tests one byte of the
selector and jumps. All three say the same of every selector, so it makes no
difference to a run which of them its processor uses, and on a machine the entry
code branches as its caller was told (`classifiers_interchangeable`).

Key theorems: `Machine.callerClass_run`, `Machine.branch_run`,
`Machine.classifiers_interchangeable`.
-/
import SyscallGate.Proofs.Machine.Gate
import SyscallGate.Proofs.Recorder.Outline

namespace SyscallGate

/-- A run has the same answers with both classifiers: they are its transcript. -/
theorem Recorder.run_eq (classifier classifier' : Classifier) (selector : UInt16) (script : List (List Action))
    (calls : List Call) : run classifier selector script calls = run classifier' selector script calls := by
  obtain ⟨as, hrun, htranscript⟩ := run_answered classifier selector script calls
  obtain ⟨as', hrun', htranscript'⟩ := run_answered classifier' selector script calls
  rw [hrun, hrun', htranscript.unique htranscript']

namespace Machine

theorem callerClass_run (m : Machine) :
    callerClass.run m = (.ofSelector m.selector, m.recording (.readSelector m.selector)) := by
  rw [← CallerClass.ofRing_ofSelector]
  rfl

/-- The first five instructions of the entry code read the selector once, and end
at the request in ring 0 and at the native path in the others. -/
theorem branch_run (server : Server) (window : Window) (core : EntryCode.Core) (m : Machine) :
    (EntryCode.run (surroundings server window) 5 core (.inside 0)).run m =
      ((((core.push core.regs.rflags).push core.regs.rax).testRing m.selector,
        .inside (if m.selector &&& 3 = 0 then 5 else EntryCode.native)),
        m.recording (.readSelector m.selector)) := by
  have hcode := EntryCode.run_classify (surroundings server window) 0 core
  rw [Nat.zero_add] at hcode
  rw [hcode]
  rfl

/-- **All ways to find the class agree.** A run has the same answers with both
classifiers, each with its way, its registers and all of its events, whatever
selectors its calls and handlers put in. The ring that a selector names is the
one of the level in its two low bits. On every machine the class a caller is told
is that of the selector it is told next, and the entry code, on whatever core,
branches to its request if that is the most privileged class and to its native
path if not; each of the three reads the selector once and does no more. -/
theorem classifiers_interchangeable (selector : UInt16) (script : List (List Recorder.Action))
    (calls : List Recorder.Call) :
    Recorder.run .bySelector selector script calls = Recorder.run .byRing selector script calls ∧
      (∀ s : UInt16, Ring.ofLevel (s &&& 3) = .ok (.ofSelector s)) ∧
      ∀ (server : Server) (window : Window) (core : EntryCode.Core) (m : Machine),
        let (answer, asked) := callerClass.run m
        let (current, read) := readSelector.run m
        let ((_, place), branched) := (EntryCode.run (surroundings server window) 5 core (.inside 0)).run m
        answer = .ofSelector current ∧
          place = .inside (match answer with | .mostPrivileged => 5 | .reduced => EntryCode.native) ∧
          asked = read ∧ branched = read := by
  refine ⟨Recorder.run_eq .bySelector .byRing selector script calls, Ring.ofLevel_and_ringMask, ?_⟩
  intro server window core m
  have hread : readSelector.run m = (m.selector, m.recording (.readSelector m.selector)) := rfl
  have hplace : (if m.selector &&& 3 = 0 then 5 else EntryCode.native) =
      match CallerClass.ofSelector m.selector with | .mostPrivileged => 5 | .reduced => EntryCode.native := by
    rw [CallerClass.ofSelector, show ringMask = 3 from rfl]
    by_cases hring : m.selector &&& 3 = 0
    · rw [if_pos hring, if_pos hring]
    · rw [if_neg hring, if_neg hring]
  rw [callerClass_run, hread, branch_run, hplace]
  exact ⟨rfl, rfl, rfl, rfl⟩

end Machine
end SyscallGate
