import KvmHypervisor.BootedProgram
import KvmHypervisor.GuestScripts

/-!
# The Phases of a Guest

Between two instructions a guest of `guest/src` is in one of seven phases: it boots, waits for
an interrupt, handles the first one, waits for the second, handles it, is about to leave its loop,
and has left it. A phase knows how many interrupts the hypervisor still has to inject, what the
program of the guest still has to do, and what it has printed.

## Main results

* `Phase.ask`: a query is one its program expects, and any admitted answer keeps the phase.
* `Phase.proceed`: so does whatever a guest does by itself.
* `Phase.inject`: an interrupt comes when the guest waits for one.
-/

open Interactions

namespace KvmHypervisor

open GuestCode (IsTestOutput completeText transferProgram)

/-! ### The phases -/

/-- The variables between the two interrupts. -/
def GuestGlobals.moded (vmMode : UInt8) : GuestGlobals :=
  { GuestGlobals.initial with vmMode, modeInitialized := true }

/-- The variables after both. -/
def GuestGlobals.transferred (vmMode : UInt8) (transferSucceeded : Bool) : GuestGlobals :=
  { GuestGlobals.moded vmMode with transferSucceeded, transferFinished := true }

/-- A guest in the loop of `main`, or in a handler that has interrupted it. -/
def Guest.waiting (globals : GuestGlobals) (handler : Option (GuestCode GuestGlobals))
    (injected : Bool) : Guest where
  globals := globals
  main := .waiting
  handler := handler
  interruptFlag := handler.isNone
  injected := injected
  inFlight := .none

/-- What a guest is left with after its handlers: the outcome of its transfer. -/
def DefaultProgram.transferred (vmMode : UInt8) (succeeded : Bool) : DefaultProgram :=
  .done (decide (vmMode = vmModeWriter)) succeeded

/-- What `main` comes to at its end. -/
structure Ends (text : List UInt8) (vmMode : UInt8) (succeeded : Bool) (g : GuestProgress)
    (ending : GuestEnd) : Prop where
  program : g.program = .transferred vmMode succeeded
  halts : ending = .hlt → succeeded = true ∧
    ∃ input, g.written = text ++ modeText vmMode ++ completeText input

/-- What a guest has printed when it halts. -/
def IsGuestOutput (vmMode : UInt8) (w : List UInt8) : Prop :=
  ∃ text input, IsTestOutput text ∧ w = text ++ modeText vmMode ++ completeText input

/-- A guest between two instructions, with `count` interrupts still to be injected, its program,
and what it has printed. -/
inductive Phase : (count : ℕ) → Guest → DefaultProgram → (written : List UInt8) → Prop
  | booting {code : GuestCode Unit} {p : DefaultProgram} {w : List UInt8} :
      GuestProgress.Meets ⟨p, w⟩ (fun t _ => IsTestOutput t.written ∧ t.program = .mode) code →
      Phase 2
        { globals := .initial
          main := .booting code
          handler := none
          interruptFlag := false
          injected := false
          inFlight := .none } p w
  | ready {count : ℕ} {injected : Bool} {text : List UInt8} : IsTestOutput text →
      count + injected.toNat = 2 → Phase count (.waiting .initial none injected) .mode text
  | handlingMode {code : GuestCode GuestGlobals} {p : DefaultProgram} {w text : List UInt8} :
      IsTestOutput text →
      GuestProgress.Meets ⟨p, w⟩ (fun t globals => ∃ vmMode, globals = .moded vmMode ∧
        t = ⟨transferProgram vmMode, text ++ modeText vmMode⟩) code →
      Phase 1 (.waiting .initial (some code) false) p w
  | moded {count : ℕ} {injected : Bool} {vmMode : UInt8} {text : List UInt8} :
      IsTestOutput text → count + injected.toNat = 1 →
      Phase count (.waiting (.moded vmMode) none injected) (transferProgram vmMode)
        (text ++ modeText vmMode)
  | transferring {vmMode : UInt8} {code : GuestCode GuestGlobals} {p : DefaultProgram}
      {w text : List UInt8} : IsTestOutput text →
      GuestProgress.Meets ⟨p, w⟩ (fun t globals => ∃ succeeded,
        globals = .transferred vmMode succeeded ∧
          t = ⟨.transferred vmMode succeeded, text ++ modeText vmMode⟩) code →
      Phase 0 (.waiting (.moded vmMode) (some code) false) p w
  | transferred {vmMode : UInt8} {succeeded : Bool} {text : List UInt8} : IsTestOutput text →
      Phase 0 (.waiting (.transferred vmMode succeeded) none false)
        (.transferred vmMode succeeded) (text ++ modeText vmMode)
  | finishing {vmMode : UInt8} {succeeded : Bool} {code : GuestCode GuestEnd}
      {p : DefaultProgram} {w text : List UInt8} : IsTestOutput text →
      GuestProgress.Meets ⟨p, w⟩ (Ends text vmMode succeeded) code →
      Phase 0
        { globals := .transferred vmMode succeeded
          main := .finishing code
          handler := none
          interruptFlag := true
          injected := false
          inFlight := .none } p w

namespace Phase

variable {count : ℕ} {g g' : Guest} {p : DefaultProgram} {w : List UInt8}

/-- A guest at its first instruction. -/
theorem initial : Phase 2 .initial .testOpen [] := by
  refine .booting (GuestCode.testFileIo_meets.mono ?_)
  rintro t - ⟨text, htext, rfl⟩
  exact ⟨htext, rfl⟩

theorem inFlight_eq_none (h : Phase count g p w) : g.inFlight = .none := by
  cases h <;> rfl

/-- What a guest gets for its query is what its program gets. -/
theorem meets_resume {α : Type} {code : GuestCode α} {post : GuestProgress → α → Prop}
    (h : GuestProgress.Meets ⟨p, w⟩ post code) {query : GuestQuery}
    (hquery : code.query? = some query) {answer : (query : GuestQuery) → query.Reply}
    (hanswer : query.Admits (answer query)) :
    ∃ p' w', GuestProgress.Moves ⟨p, w⟩ query (answer query) ⟨p', w'⟩ ∧
      GuestProgress.Meets ⟨p', w'⟩ post (code.resume answer) := by
  obtain ⟨⟨p', w'⟩, hmoves, hmeets⟩ := Interaction.Meets.resume h hquery hanswer
  exact ⟨p', w', hmoves, hmeets⟩

/-- **A query** is one the program expects, and any answer keeps the phase. -/
theorem ask (h : Phase count g p w) {query : GuestQuery} (hquery : g.query? = some query)
    {answer : (query : GuestQuery) → query.Reply} (hanswer : query.Admits (answer query)) :
    ∃ p' w', GuestProgress.Moves ⟨p, w⟩ query (answer query) ⟨p', w'⟩ ∧
      Phase count (g.resume answer) p' w' := by
  cases h with
  | booting hcode =>
      obtain ⟨p', w', hmoves, hmeets⟩ := meets_resume hcode hquery hanswer
      exact ⟨p', w', hmoves, .booting hmeets⟩
  | handlingMode htext hcode =>
      obtain ⟨p', w', hmoves, hmeets⟩ := meets_resume hcode hquery hanswer
      exact ⟨p', w', hmoves, .handlingMode htext hmeets⟩
  | transferring htext hcode =>
      obtain ⟨p', w', hmoves, hmeets⟩ := meets_resume hcode hquery hanswer
      exact ⟨p', w', hmoves, .transferring htext hmeets⟩
  | finishing htext hcode =>
      obtain ⟨p', w', hmoves, hmeets⟩ := meets_resume hcode hquery hanswer
      exact ⟨p', w', hmoves, .finishing htext hmeets⟩
  | ready | moded | transferred => cases hquery

/-- **A guest goes on by itself** and prints nothing. -/
theorem proceed (h : Phase count g p w) (hg : g.proceed = some g') : Phase count g' p w := by
  cases h with
  | @booting code p w hcode =>
      cases code with
      | pure result =>
          cases hg
          obtain ⟨htext, rfl⟩ := hcode
          exact .ready htext rfl
      | ask query next => cases hg
  | @ready count injected text htext hcount =>
      cases injected with
      | false => cases hg
      | true =>
          cases hg
          obtain rfl : count = 1 := Nat.succ_injective hcount
          refine .handlingMode htext ((GuestCode.irq0Handler_mode rfl).mono ?_)
          rintro t globals ⟨hglobals, rfl⟩
          exact ⟨globals.vmMode, hglobals, rfl⟩
  | @handlingMode code p w text htext hcode =>
      cases code with
      | pure globals =>
          cases hg
          obtain ⟨vmMode, rfl, heq⟩ := hcode
          cases heq
          exact .moded htext rfl
      | ask query next => cases hg
  | @moded count injected vmMode text htext hcount =>
      cases injected with
      | false => cases hg
      | true =>
          cases hg
          obtain rfl : count = 0 := Nat.succ_injective hcount
          have hmoded : (GuestGlobals.moded vmMode).modeInitialized = true := rfl
          refine .transferring htext ((GuestCode.irq0Handler_transfer hmoded).mono ?_)
          rintro t globals ⟨hglobals, rfl⟩
          exact ⟨globals.transferSucceeded, hglobals, rfl⟩
  | @transferring vmMode code p w text htext hcode =>
      cases code with
      | pure globals =>
          cases hg
          obtain ⟨succeeded, rfl, heq⟩ := hcode
          cases heq
          exact .transferred htext
      | ask query next => cases hg
  | @transferred vmMode succeeded text htext =>
      cases hg
      refine .finishing htext ((GuestCode.finishMain_meets succeeded).mono ?_)
      rintro t ending ⟨hprogram, hending⟩
      refine ⟨hprogram, ?_⟩
      cases succeeded with
      | false =>
          rintro rfl
          cases hending
      | true => exact fun _ => ⟨rfl, hending.2⟩
  | finishing htext hcode => cases hg

/-- **An interrupt** comes only to a guest that waits for it. -/
theorem inject (h : Phase count g p w) (hopen : g.interruptible = true) (hcount : 0 < count) :
    g.main = .waiting ∧ g.handler = none ∧
      Phase (count - 1) { g with injected := true } p w := by
  cases h with
  | booting | handlingMode | transferring => cases hopen
  | transferred | finishing => cases hcount
  | @ready count injected text htext hleft =>
      cases injected with
      | true => cases hopen
      | false =>
          obtain rfl : count = 2 := hleft
          exact ⟨rfl, rfl, .ready htext rfl⟩
  | @moded count injected vmMode text htext hleft =>
      cases injected with
      | true => cases hopen
      | false =>
          obtain rfl : count = 1 := hleft
          exact ⟨rfl, rfl, .moded htext rfl⟩

/-- **A guest that halts** has made its transfer and printed its text. -/
theorem halt (h : Phase count g p w) (hending : g.ending = some .hlt) :
    ∃ vmMode, count = 0 ∧ g.injected = false ∧ p = .transferred vmMode true ∧
      IsGuestOutput vmMode w := by
  cases h with
  | booting | ready | moded | transferred => cases hending
  | handlingMode | transferring => cases hending
  | @finishing vmMode succeeded code p w text htext hcode =>
      cases code with
      | ask query next => cases hending
      | pure ending =>
          cases hending
          obtain ⟨rfl, input, hw⟩ := hcode.halts rfl
          exact ⟨vmMode, rfl, rfl, hcode.program, text, input, htext, hw⟩

end Phase

/-! ### Queries by their kind -/

/-- The port of an instruction. -/
def PortCommand.port : PortCommand → ℕ
  | .inb port | .inl port | .outb port _ | .outl port _ => port

/-- A program uses the ports of the shared buffer and no others. -/
theorem DefaultProgram.port_of_next {p : DefaultProgram} {command : PortCommand}
    (h : p.next = some command) :
    command.port = sharedBufferPort ∨ command.port = sharedBufferStatusPort := by
  cases p with
  | mode | announce | ask =>
      cases h
      exact .inl rfl
  | refuse =>
      cases h
      exact .inr rfl
  | send read buffer sent =>
      rw [next] at h
      cases hvalue : buffer[sent]? <;> rw [hvalue] at h <;> cases h
      · exact .inr rfl
      · exact .inl rfl
  | receive count buffer =>
      rw [next] at h
      split_ifs at h <;> cases h
      · exact .inl rfl
      · exact .inr rfl
  | _ => cases h

/-- An answer for every query. -/
def GuestQuery.blank : (query : GuestQuery) → query.Reply
  | .port _ => (0 : ℕ)
  | .file _ => (⟨0, []⟩ : FileReply)

theorem GuestQuery.admits_blank (query : GuestQuery) : query.Admits query.blank := by
  cases query with
  | port command => cases command <;> first | trivial | exact Nat.two_pow_pos _
  | file call => rfl

namespace Phase

variable {count : ℕ} {g : Guest} {p : DefaultProgram} {w : List UInt8}

/-- What a guest does with the answers it admits. -/
def Goes (count : ℕ) (g : Guest) (query : GuestQuery) (next : query.Reply → DefaultProgram)
    (w : List UInt8) : Prop :=
  ∀ answer : (query : GuestQuery) → query.Reply, query.Admits (answer query) →
    Phase count (g.resume answer) (next (answer query)) w

/-- **A port instruction** is one of the console, or the next one of the program. -/
theorem ask_port (h : Phase count g p w) {command : PortCommand}
    (hquery : g.query? = some (.port command)) :
    (∃ value, command = .outb serialPort value ∧
      Goes count g (.port command) (fun _ => p) (w ++ [value])) ∨
    (command = .inb serialPort ∧ Goes count g (.port command) (fun _ => p) w) ∨
    (p.next = some command ∧
      Goes count g (.port command) (fun (response : ℕ) => p.resume response) w) := by
  have hport : p.next = some command → command.port ≠ serialPort := by
    intro hnext
    rcases DefaultProgram.port_of_next hnext with heq | heq <;> rw [heq] <;> decide
  obtain ⟨_, _, hmoves, -⟩ := h.ask hquery (GuestQuery.admits_blank _)
  cases hmoves with
  | serialOut value =>
      refine .inl ⟨value, rfl, fun answer hanswer => ?_⟩
      obtain ⟨p', w', hmoves, hphase⟩ := h.ask hquery hanswer
      cases hmoves with
      | serialOut => exact hphase
      | port hnext => exact absurd rfl (hport hnext)
  | serialIn =>
      refine .inr (.inl ⟨rfl, fun answer hanswer => ?_⟩)
      obtain ⟨p', w', hmoves, hphase⟩ := h.ask hquery hanswer
      cases hmoves with
      | serialIn => exact hphase
      | port hnext => exact absurd rfl (hport hnext)
  | port hnext =>
      refine .inr (.inr ⟨hnext, fun answer hanswer => ?_⟩)
      obtain ⟨p', w', hmoves, hphase⟩ := h.ask hquery hanswer
      cases hmoves with
      | serialOut | serialIn => exact absurd rfl (hport hnext)
      | port => exact hphase

/-- **A file call** is the next one of the program. -/
theorem ask_file (h : Phase count g p w) {call : FileCall}
    (hquery : g.query? = some (.file call)) :
    p.fileCall = some call ∧
      Goes count g (.file call) (fun (reply : FileReply) => p.replied reply) w := by
  obtain ⟨_, _, hmoves, -⟩ := h.ask hquery (GuestQuery.admits_blank _)
  cases hmoves with
  | file hcall =>
      refine ⟨hcall, fun answer hanswer => ?_⟩
      obtain ⟨p', w', hmoves, hphase⟩ := h.ask hquery hanswer
      cases hmoves with
      | file => exact hphase

end Phase

end KvmHypervisor
