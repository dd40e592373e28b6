/-
# No start without SEV-SNP

The check when a guest starts reads the status once. With the bit of SEV-SNP set
it says where the code for calls begins and ends, comes back, and does not leave;
without it, it says what it read, and terminates the guest. What it says can be
read back. The handler of that termination may set the bit, or run a check of his
own that succeeds: this one does not come back, and never says that it is ready.
Whatever it says is said after the port was set up, so every byte goes out, ready
or not as the port was before (`startUp_gates`).

Key definitions: `Machine.Settings.aloud`, `Machine.Talked`,
`Machine.Settings.readyText`.
Key theorems: `Machine.setUpConsole_talked`, `Machine.print_talked`,
`Machine.startUp_run_active`, `Machine.startUp_run_inactive`,
`Machine.said_readyText_ne`, `Machine.startUp_gates`.
-/
import Mathlib.Data.Nat.Bitwise
import SyscallGate.Proofs.Text
import SyscallGate.Proofs.Machine.Granted
import SyscallGate.Proofs.Machine.Sayings
import SyscallGate.Proofs.Machine.Termination

namespace SyscallGate

/-- The bit of the status that says SEV-SNP is active is bit 2. -/
theorem Ghcb.and_snpActive_eq_zero_iff (status : UInt64) :
    status &&& snpActive = 0 ↔ status.toNat.testBit 2 = false := by
  rw [← UInt64.toNat_inj, UInt64.toNat_and, Nat.land_comm]
  change 2 ^ 2 &&& status.toNat = 0 ↔ _
  rw [Nat.two_pow_and]
  cases status.toNat.testBit 2 <;> decide

namespace Machine

/-- What is talked in a build: without messages, nothing. -/
def Settings.aloud (settings : Settings) (talk : List Event) : List Event :=
  if settings.verbose then talk else []

/-- These events are between the machines, and beside the ports and the console
nothing else is changed. -/
def Talked (m : Machine) (talk : List Event) (m' : Machine) : Prop :=
  ∃ input written console, m' = { m with input, written, console, history := talk.reverse ++ m.history }

namespace Talked

variable {a b c : Machine} {talk more : List Event}

theorem refl (m : Machine) : Talked m [] m := ⟨_, _, _, rfl⟩

theorem append (h : Talked a talk b) (hmore : Talked b more c) : Talked a (talk ++ more) c := by
  obtain ⟨input, written, console, rfl⟩ := h
  obtain ⟨input', written', console', rfl⟩ := hmore
  refine ⟨input', written', console', ?_⟩
  rw [List.reverse_append, List.append_assoc]

theorem event (m : Machine) (event : Event) : Talked m [event] (m.recording event) := ⟨_, _, _, rfl⟩

theorem history (h : Talked a talk b) : b.history = talk.reverse ++ a.history := by
  obtain ⟨input, written, console, rfl⟩ := h
  rfl

theorem msrs (h : Talked a talk b) : b.msrs = a.msrs := by
  obtain ⟨input, written, console, rfl⟩ := h
  rfl

theorem haltsLeft (h : Talked a talk b) : b.haltsLeft = a.haltsLeft := by
  obtain ⟨input, written, console, rfl⟩ := h
  rfl

end Talked

section Talking

variable (settings : Settings) {m : Machine}

theorem setUpConsole_talked (hrest : settings.verbose = true → AtRest m.console) : ∃ control m',
    (setUpConsole settings.verbose).run.run m = (.ok (), m') ∧ Talked m (settings.aloud (setUpTalk control)) m' ∧
      (settings.verbose = true → AtRest m'.console ∧ m'.console.value.ready = true) := by
  unfold Settings.aloud
  cases hverbose : settings.verbose with
  | false => exact ⟨0, m, rfl, .refl m, nofun⟩
  | true =>
    obtain ⟨control, input, written, hrun, -⟩ := setUpConsole_run (hrest hverbose)
    exact ⟨control, _, hrun, ⟨_, _, _, rfl⟩, fun _ => ⟨(hrest hverbose).passed rfl, rfl⟩⟩

/-- On a port that is ready, all of a text goes out. -/
theorem print_talked (hrest : settings.verbose = true → AtRest m.console ∧ m.console.value.ready = true)
    (text : String) : ∃ m',
    (print settings.verbose text).run.run m = (.ok (), m') ∧
      Talked m (settings.aloud (messageTalk true (textBytes text))) m' ∧
      (settings.verbose = true → AtRest m'.console) := by
  unfold Settings.aloud
  cases hverbose : settings.verbose with
  | false => exact ⟨m, rfl, .refl m, nofun⟩
  | true =>
    obtain ⟨hfree, hready⟩ := hrest hverbose
    obtain ⟨written, -, hrun⟩ := print_run hfree text
    rw [hready] at hrun
    exact ⟨_, hrun, ⟨_, _, _, rfl⟩, fun _ => hfree.passed rfl⟩

end Talking

/-! ### The check -/

/-- What is said when calls can be redirected, with the addresses of a run. -/
def Settings.readyText (settings : Settings) : String :=
  Machine.readyText settings.entry (EntryCode.finish settings.entry)

/-- What happens until the check knows the status. -/
def Settings.opening (settings : Settings) (control : UInt8) (status : UInt64) : List Event :=
  settings.aloud (setUpTalk control) ++ [.readMsr Ghcb.statusMsr status]

section Check

variable (settings : Settings) (server : Server) {m : Machine}
  (hrest : settings.verbose = true → AtRest m.console)

include hrest

theorem startUp_reads : ∃ control m' near,
    (setUpConsole settings.verbose).run.run m = (.ok (), m') ∧
      (liftM (readMsr Ghcb.statusMsr) : Exec UInt64).run.run m' = (.ok (m.msrs Ghcb.statusMsr), near) ∧
      Talked m (settings.opening control (m.msrs Ghcb.statusMsr)) near ∧
      (settings.verbose = true → AtRest near.console ∧ near.console.value.ready = true) := by
  obtain ⟨control, m', hset, htalked, hready⟩ := setUpConsole_talked settings hrest
  have hread : (liftM (readMsr Ghcb.statusMsr) : Exec UInt64).run.run m' = (.ok (m.msrs Ghcb.statusMsr),
      m'.recording (.readMsr Ghcb.statusMsr (m.msrs Ghcb.statusMsr))) := by
    change (Except.ok <$> readMsr Ghcb.statusMsr).run m' = _
    rw [StateT.run_map, readMsr_run, htalked.msrs]
    rfl
  exact ⟨control, m', _, hset, hread, htalked.append (.event m' _), hready⟩

theorem startUp_run_active (hactive : m.msrs Ghcb.statusMsr &&& Ghcb.snpActive ≠ 0) : ∃ control after,
    (startUp settings.verbose settings.entry server).run.run m = (.ok (), after) ∧
      Talked m (settings.opening control (m.msrs Ghcb.statusMsr) ++
        settings.aloud (messageTalk true (textBytes settings.readyText))) after := by
  obtain ⟨control, m', near, hset, hread, hopening, hready⟩ := startUp_reads settings hrest
  obtain ⟨after, hprint, hsaid, -⟩ := print_talked settings hready settings.readyText
  refine ⟨control, after, ?_, hopening.append hsaid⟩
  rw [startUp, run_bind_ok hset, run_bind_ok hread, if_neg hactive]
  exact hprint

theorem startUp_run_inactive (hinactive : m.msrs Ghcb.statusMsr &&& Ghcb.snpActive = 0) : ∃ control near,
    (startUp settings.verbose settings.entry server).run.run m =
        (.error .halted, exhausted ((server { Registers.zero with rflags := Flags.idle }).run
          (near.requesting Ghcb.reasonSet Ghcb.notSnpReason)).2) ∧
      Talked m (settings.opening control (m.msrs Ghcb.statusMsr) ++
        settings.aloud (messageTalk true (textBytes (notActiveText (m.msrs Ghcb.statusMsr))))) near ∧
      (settings.verbose = true → AtRest near.console) := by
  obtain ⟨control, m', m'', hset, hread, hopening, hready⟩ := startUp_reads settings hrest
  obtain ⟨near, hprint, hsaid, hfree⟩ := print_talked settings hready (notActiveText (m.msrs Ghcb.statusMsr))
  refine ⟨control, near, ?_, hopening.append hsaid, hfree⟩
  rw [startUp, run_bind_ok hset, run_bind_ok hread, if_pos hinactive, run_bind_ok hprint, terminateNotSnp,
    run_bind_error (terminate_run _ _ server near)]

end Check

/-! ### What is said -/

theorem Settings.aloud_closed (settings : Settings) {answers : UInt8 → Prop} {ready now : Bool} {talk : List Event}
    (h : Talk answers ready talk now) : Closed (settings.aloud talk) (settings.aloud talk) := by
  rw [Settings.aloud]
  cases settings.verbose with
  | false => exact .nothing
  | true => exact h.closed

/-- No step begins or ends while the check sets the console up and says something. -/
theorem opening_message_closed (settings : Settings) (control : UInt8) (status : UInt64) (bytes : List UInt8) :
    Closed (settings.opening control status ++ settings.aloud (messageTalk true bytes))
      (settings.opening control status ++ settings.aloud (messageTalk true bytes)) := by
  have hset : Talk (fun _ => True) true (setUpTalk control) true := .setUp trivial
  have hmessage : Talk (fun _ => True) true (messageTalk true bytes) true := .message bytes
  exact ((settings.aloud_closed hset).append (.event rfl)).append (settings.aloud_closed hmessage)

theorem textBytes_notActiveText (status : UInt64) : textBytes (notActiveText status) =
    textBytes "ERR: SEV-SNP is not active, SEV_STATUS=" ++ textBytes (Numeral.hex status.toNat) ++ textBytes "\n" := by
  unfold notActiveText
  rw [textBytes_append, textBytes_append]

theorem textBytes_readyText (entry finish : UInt64) : textBytes (readyText entry finish) =
    textBytes "> VMPL syscall trampoline at " ++ textBytes (Numeral.hex entry.toNat) ++ textBytes "-" ++
      textBytes (Numeral.hex finish.toNat) ++ textBytes "\n" := by
  unfold readyText
  rw [textBytes_append, textBytes_append, textBytes_append, textBytes_append]

/-- The two things that the check may say are different: they begin differently. -/
theorem said_readyText_ne (entry finish status : UInt64) :
    said (readyText entry finish) ≠ said (notActiveText status) := by
  intro hsame
  have htext : readyText entry finish = notActiveText status := textBytes_injective (Event.message.inj hsame)
  unfold readyText notActiveText at htext
  have hchars := congrArg String.toList htext
  simp [String.toList_append] at hchars

theorem sayings_opening_message (settings : Settings) (control : UInt8) (status : UInt64) (text : String) :
    sayings (settings.opening control status ++ settings.aloud (messageTalk true (textBytes text))) =
      settings.aloud [.setUp, said text] := by
  rw [Settings.opening, Settings.aloud, Settings.aloud, Settings.aloud]
  cases settings.verbose with
  | false => rfl
  | true =>
    have htext : sayings (messageTalk true (textBytes text)) = [said text] := sayings_messageTalk true _
    rw [if_pos rfl, if_pos rfl, sayings_append, htext]
    rfl

theorem Changes.sayings {self : List Event} (h : Changes self) : sayings self = [] := by
  refine List.filter_eq_nil_iff.mpr fun event hevent => ?_
  have hchange := h event hevent
  cases event <;> first | exact Bool.false_ne_true | cases hchange

/-- A request, what is changed from outside, and HLTs say nothing in addition. -/
theorem sayings_refused (settings : Settings) (control : UInt8) (status : UInt64) {changes : List Event}
    (hchanges : Changes changes) (value : UInt64) (purpose : Purpose) (halts : Nat) :
    sayings (settings.opening control status ++ settings.aloud (messageTalk true (textBytes (notActiveText status))) ++
        [.writeMsr Ghcb.msr value, .exit .vmgexit purpose []] ++ changes ++ List.replicate halts .halt) =
      settings.aloud [.setUp, said (notActiveText status)] := by
  have hasked : sayings [.writeMsr Ghcb.msr value, .exit .vmgexit purpose []] = [] := rfl
  have hhalts : sayings (List.replicate halts .halt) = [] := List.filter_eq_nil_iff.mpr fun event hevent => by
    rw [List.eq_of_mem_replicate hevent]
    exact Bool.false_ne_true
  rw [sayings_append, sayings_append, sayings_append, hasked, hchanges.sayings, hhalts, List.append_nil,
    List.append_nil, List.append_nil, sayings_opening_message]

theorem said_readyText_notMem {settings : Settings} {status : UInt64} {events : List Event}
    (h : sayings events = settings.aloud [.setUp, said (notActiveText status)]) (entry finish : UInt64) :
    said (readyText entry finish) ∉ events := by
  intro hmem
  have hsaid : said (readyText entry finish) ∈ sayings events := List.mem_filter.mpr ⟨hmem, rfl⟩
  rw [h, Settings.aloud] at hsaid
  by_cases hverbose : settings.verbose = true
  · rw [if_pos hverbose] at hsaid
    rcases List.mem_cons.mp hsaid with hset | htext
    · cases hset
    · exact said_readyText_ne entry finish status (List.mem_singleton.mp htext)
  · rw [if_neg hverbose] at hsaid
    cases hsaid

/-! ### The step -/

section Gate

variable (settings : Settings) (server : Server) {m : Machine}
  (hrest : settings.verbose = true → AtRest m.console)

include hrest

/-- With SEV-SNP the step is done, and nothing but ports and console is changed. -/
theorem runStep_startUp_active (hactive : m.msrs Ghcb.statusMsr &&& Ghcb.snpActive ≠ 0) : ∃ control after,
    (runStep settings server .startUp).run m = (.done, after) ∧
      Talked m (settings.opening control (m.msrs Ghcb.statusMsr) ++
        settings.aloud (messageTalk true (textBytes settings.readyText))) after := by
  obtain ⟨control, after, hrun, input, written, console, hafter⟩ := startUp_run_active settings server
    (m := m.withBudget settings.halts settings.pauses) hrest hactive
  have hcarry : (carryOut settings server .startUp).run.run (m.withBudget settings.halts settings.pauses) =
      (.ok .done, after) := run_bind_ok hrun
  refine ⟨control, after.withBudget m.haltsLeft m.pausesLeft, ?_, input, written, console, ?_⟩
  · rw [runStep_run, hcarry]
    rfl
  · rw [hafter]
    rfl

theorem runStep_startUp_inactive (hinactive : m.msrs Ghcb.statusMsr &&& Ghcb.snpActive = 0) : ∃ control near,
    (runStep settings server .startUp).run m =
        (.stopped .halted, (exhausted ((server { Registers.zero with rflags := Flags.idle }).run
          (near.requesting Ghcb.reasonSet Ghcb.notSnpReason)).2).withBudget m.haltsLeft m.pausesLeft) ∧
      Talked (m.withBudget settings.halts settings.pauses) (settings.opening control (m.msrs Ghcb.statusMsr) ++
        settings.aloud (messageTalk true (textBytes (notActiveText (m.msrs Ghcb.statusMsr))))) near ∧
      (settings.verbose = true → AtRest near.console) := by
  obtain ⟨control, near, hrun, htalked, hfree⟩ := startUp_run_inactive settings server
    (m := m.withBudget settings.halts settings.pauses) hrest hinactive
  have hcarry : (carryOut settings server .startUp).run.run (m.withBudget settings.halts settings.pauses) =
      (.error .halted, _) := run_bind_error hrun
  refine ⟨control, near, ?_, htalked, hfree⟩
  rw [runStep_run, hcarry]
  rfl

end Gate

theorem Follows.atRest {settings : Settings} {server : Server} (h : Follows settings server) :
    Companions SameAtRest server server := by
  cases h with
  | script => exact (kept_atRest settings).handle
  | depth depth => exact (kept_atRest settings).serve depth

/-- **A guest starts only with SEV-SNP.** The check reads the status once, after it
set the console up. If bit 2 is set, it says where the code for calls lies and is
done: no MSR is written, and it neither leaves nor halts. Otherwise it says what the
status is, asks for its termination, and halts for good; whatever the handler does,
the check itself never says where any code lies. The addresses and the status are
read back from what is said. All of a text goes out, whether the port was ready
before or not. A build with messages needs its console at rest; so it is when a run
starts, where the check leaves, and after every step and every action of a handler. -/
theorem startUp_gates (settings : Settings) {m : Machine} (hrest : settings.verbose = true → AtRest m.console)
    (server : Server) :
    let status := m.msrs 0xc0010131
    let finish := EntryCode.finish settings.entry
    let ended := (runStep settings server .startUp).run m
    let events := since m.history ended.2.history
    let logs (control : UInt8) (text : String) : List Event :=
      settings.aloud (setUpTalk control) ++ [.readMsr 0xc0010131 status] ++
        settings.aloud (messageTalk true (textBytes text))
    (status.toNat.testBit 2 = true → ended.1 = .done ∧
      ∃ control, events = logs control (readyText settings.entry finish) ∧ Talked m events ended.2) ∧
    (status.toNat.testBit 2 = false → ended.1 = .stopped .halted ∧
      ∃ control near, Talked (m.withBudget settings.halts settings.pauses) (logs control (notActiveText status)) near ∧
        (settings.verbose = true → AtRest near.console) ∧
        let leaving := near.requesting 15 13
        let served := ((server { Registers.zero with rflags := Flags.idle }).run leaving).2
        let between := since leaving.history served.history
        let asked : List Event := [.writeMsr 0xc0010130 0xdf100, .exit .vmgexit (.terminate 15 13) []]
        let halts := List.replicate (max 1 settings.halts) Event.halt
        ended.2 = served.exhausted.withBudget m.haltsLeft m.pausesLeft ∧
        (Follows settings server →
          events = logs control (notActiveText status) ++ asked ++ between ++ halts ∧
          own events = logs control (notActiveText status) ++ asked ++ own between ++ halts ∧
          Changes (own between) ∧
          sayings (own events) = settings.aloud [.setUp, said (notActiveText status)] ∧
          ∀ first last, said (readyText first last) ∉ own events)) ∧
    (∃ first last, textBytes (readyText settings.entry finish) = textBytes "> VMPL syscall trampoline at " ++
        textBytes first ++ textBytes "-" ++ textBytes last ++ textBytes "\n" ∧
      Numeral.read? first = some (settings.entry.toNat : Int) ∧ Numeral.read? last = some (finish.toNat : Int)) ∧
    (∃ field, textBytes (notActiveText status) =
        textBytes "ERR: SEV-SNP is not active, SEV_STATUS=" ++ textBytes field ++ textBytes "\n" ∧
      Numeral.read? field = some (status.toNat : Int)) ∧
    (∀ selector msrs input serialReady script,
      AtRest (start settings selector msrs input serialReady script).console) ∧
    (Follows settings server → ∀ inner : Machine, AtRest inner.console →
      (∀ step, AtRest ((runStep settings server step).run inner).2.console) ∧
      ∀ h action, AtRest ((perform settings server h action).run inner).2.console) := by
  intro status finish ended events logs
  refine ⟨?active, ?inactive, ?range, ?field, fun _ _ _ _ _ => ⟨rfl, rfl⟩, ?rest⟩
  case active =>
    intro hbit
    have hactive : status &&& Ghcb.snpActive ≠ 0 := by
      rw [Ne, Ghcb.and_snpActive_eq_zero_iff, hbit]
      exact Bool.noConfusion
    obtain ⟨control, after, hrun, htalked⟩ := runStep_startUp_active settings server hrest hactive
    have hevents : events = logs control (readyText settings.entry finish) := by
      change since m.history ended.2.history = _
      rw [show ended = (.done, after) from hrun, htalked.history, since_append, List.reverse_reverse]
      rfl
    refine ⟨congrArg Prod.fst hrun, control, hevents, ?_⟩
    rw [hevents, show ended.2 = after from congrArg Prod.snd hrun]
    exact htalked
  case inactive =>
    intro hbit
    have hinactive : status &&& Ghcb.snpActive = 0 := (Ghcb.and_snpActive_eq_zero_iff status).mpr hbit
    obtain ⟨control, near, hrun, htalked, hfree⟩ := runStep_startUp_inactive settings server hrest hinactive
    refine ⟨congrArg Prod.fst hrun, control, near, htalked, hfree, ?_⟩
    intro leaving served between asked halts
    refine ⟨congrArg Prod.snd hrun, fun hserver => ?_⟩
    have hclosed : Closed (logs control (notActiveText status)) (logs control (notActiveText status)) :=
      opening_message_closed settings control status (textBytes (notActiveText status))
    have hall := hserver.exhausted_events Ghcb.reasonSet Ghcb.notSnpReason htalked.history hclosed
    have hleft : near.haltsLeft = settings.halts := htalked.haltsLeft
    rw [hleft] at hall
    have hsame : events = since m.history served.exhausted.history :=
      congrArg (fun run : Result × Machine => since m.history run.2.history) hrun
    obtain ⟨hevents, hown, hchanges⟩ := hall
    have hself : own events = logs control (notActiveText status) ++ asked ++ own between ++ halts := hsame ▸ hown
    have hsayings : sayings (own events) = settings.aloud [.setUp, said (notActiveText status)] := by
      rw [hself]
      exact sayings_refused settings control status hchanges 0xdf100 (.terminate 15 13) (max 1 settings.halts)
    exact ⟨hsame ▸ hevents, hself, hchanges, hsayings, said_readyText_notMem hsayings⟩
  case range =>
    exact ⟨_, _, textBytes_readyText settings.entry finish, Numeral.read?_hex settings.entry.toNat,
      Numeral.read?_hex finish.toNat⟩
  case field =>
    exact ⟨_, textBytes_notActiveText status, Numeral.read?_hex status.toNat⟩
  case rest =>
    intro hserver inner hfree
    exact ⟨fun step => ((kept_atRest settings).runStep hserver.atRest step inner inner ⟨rfl, hfree⟩).2.2,
      fun h action => ((kept_atRest settings).perform hserver.atRest h action inner inner ⟨rfl, hfree⟩).2.2⟩

/-- The port was not set up, and SEV-SNP is not active. The handler of the
termination sets the bit and runs the check again: that one is ready, and done. The
first one still halts, and says no more. -/
theorem startUp_gates_though_handler_is_ready :
    let settings : Settings := ⟨true, 2, 1, 0x400000⟩
    let ready := "> VMPL syscall trampoline at 0x400000-0x400028\n"
    let m := start settings 0x10 [(0xc0010131, 0x8)] [] false [[.msr 0xc0010131 0x4, .run .startUp]]
    let ended := (runStep settings (handle settings) .startUp).run m
    let events := since m.history ended.2.history
    ended.1 = .stopped .halted ∧ .leave .done ∈ events ∧ said ready ∈ events ∧ said ready ∉ own events ∧
      sayings (own events) = [.setUp, said "ERR: SEV-SNP is not active, SEV_STATUS=0x8\n"] := by
  intro settings ready m ended events
  obtain ⟨-, hinactive, -⟩ := startUp_gates settings (m := m) (fun _ => ⟨rfl, rfl⟩) (handle settings)
  have hbit : (m.msrs 0xc0010131).toNat.testBit 2 = false := by decide +kernel
  obtain ⟨hstopped, control, near, -, -, -, hgate⟩ := hinactive hbit
  obtain ⟨-, -, -, hsayings, hnever⟩ := hgate .script
  have hready : readyText 0x400000 (EntryCode.finish 0x400000) = ready := by decide +kernel
  have htext : notActiveText (m.msrs 0xc0010131) = "ERR: SEV-SNP is not active, SEV_STATUS=0x8\n" := by
    decide +kernel
  rw [htext] at hsayings
  exact ⟨hstopped, by decide +kernel, by decide +kernel, hready ▸ hnever _ _, hsayings⟩

end Machine
end SyscallGate
