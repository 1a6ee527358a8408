import PahoClient.Properties.Outcome

/-!
# Connect and disconnect commands under `_conexao_mtx`

The mutex is held from before the command until after its completion, so the
commands of different calls never overlap.  A connect call tests the connection
after it has taken the mutex and a disconnect call before, so only the first
test still holds when the command is issued.
-/

namespace PahoClient

open PahoClient.Transition

/-! ## Events of a call -/

/-- The call `c` hands its command to the library. -/
def Issues (c : CallId) (event : Event State Label) : Prop :=
  (∃ ret, event.label = .call c ret) ∧ event.source.pc c = .command

/-- The call `c` takes `_conexao_mtx`. -/
def TakesConexao (c : CallId) (event : Event State Label) : Prop :=
  (∃ ret, event.label = .call c ret) ∧ event.source.pc c = .lockConexao

/-- Neither a connect nor a disconnect command is in the hands of the
library. -/
def NonePending (program : Program) (s : State) : Prop :=
  ∀ d, (program.op d).usesConexao = true → (s.request d).outstanding = false

/-- Connect commands are issued while disconnected, disconnect commands while
connected, and both while no command is pending. -/
def Guarded (program : Program) (event : Event State Label) : Prop :=
  ∀ c, Issues c event →
    (program.op c = .conectar →
      event.source.conectado = false ∧ NonePending program event.source) ∧
    (program.op c = .desconectar →
      event.source.conectado = true ∧ NonePending program event.source)

/-- Every disconnect call that issued its command found the client connected
when it took `_conexao_mtx`. -/
def LockedConnected (program : Program) (history : List (Event State Label)) : Prop :=
  ∀ c, program.op c = .desconectar → (∃ event ∈ history, Issues c event) →
    ∀ event ∈ history, TakesConexao c event → event.source.conectado = true

/-- The connection is never lost. -/
def NoLoss (history : List (Event State Label)) : Prop :=
  ∀ event ∈ history, ∀ conectado, event.label ≠ .network conectado

section Steps

variable {program : Program} {s t : State} {label : Label}

/-- While one call holds `_conexao_mtx` and has not issued its command, no other
command is pending. -/
theorem Inv.nonePending (inv : Inv program s) {c : CallId}
    (uses : (program.op c).usesConexao = true)
    (ownsContexto : owns (program.op c) (s.pc c) = true) (unissued : s.request c = .unissued) :
    NonePending program s := by
  intro d usesD
  cases outstanding : (s.request d).outstanding with
  | false => rfl
  | true =>
      have heldByD := (inv.mutex d usesD).mp (inv.owns_of_outstanding outstanding)
      have heldByC := (inv.mutex c uses).mp ownsContexto
      have same : d = c := Option.some.inj (heldByD.symm.trans heldByC)
      rw [same, unissued] at outstanding
      cases outstanding

/-- Without losses the connection state only changes when a connect or
disconnect command finishes, so it is stable while none is pending. -/
theorem conectado_of_nonePending (none : NonePending program s)
    (executed : step program s label = some t)
    (noLoss : ∀ conectado, label ≠ .network conectado) : t.conectado = s.conectado := by
  rcases conectado_cases executed with same | ⟨conectado, labelEq⟩ |
    ⟨c, res, _, pending, uses⟩
  · exact same
  · exact absurd labelEq (noLoss conectado)
  · have finished := none c uses
    rw [pending] at finished
    cases finished

/-- A client that becomes connected only through its commands stays disconnected
while none is pending. -/
theorem disconnected_of_nonePending (none : NonePending program s)
    (executed : step program s label = some t) (notGained : label ≠ .network true)
    (disconnected : s.conectado = false) : t.conectado = false := by
  rcases conectado_cases executed with same | ⟨conectado, rfl⟩ | ⟨c, res, _, pending, uses⟩
  · rw [same]
    exact disconnected
  · cases conectado with
    | false =>
        cases executed
        rfl
    | true => exact absurd rfl notGained
  · have finished := none c uses
    rw [pending] at finished
    cases finished

/-! ## Connect calls -/

/-- A connect call past its test knows that the client is disconnected. -/
def ConnectTested (program : Program) (s : State) : Prop :=
  ∀ c, program.op c = .conectar → s.pc c = .setCallbacks ∨ s.pc c = .command →
    s.conectado = false

theorem Inv.nonePending_of_connect (inv : Inv program s) {c : CallId}
    (op : program.op c = .conectar)
    (pc : s.pc c = .testConectado ∨ s.pc c = .setCallbacks ∨ s.pc c = .command) :
    NonePending program s := by
  have progress := inv.progress c
  rcases pc with pc | pc | pc
  all_goals
    rw [pc] at progress
    exact inv.nonePending (by rw [op]; rfl) (by rw [op, pc]; rfl) progress

theorem connectTested_step (inv : Inv program s) (tested : ConnectTested program s)
    (executed : step program s label = some t) (notGained : label ≠ .network true) :
    ConnectTested program t := by
  intro c op pc
  by_cases own : ∃ ret, label = .call c ret
  · obtain ⟨ret, rfl⟩ := own
    have next := pc_of_call executed
    rw [op] at next
    have unchanged := (despachar_effect executed).conectado
    cases before : s.pc c with
    | testConectado =>
        rw [unchanged]
        cases connected : s.conectado with
        | false => rfl
        | true =>
            rw [next] at pc
            simp [callNext, before, connected] at pc
    | setCallbacks =>
        rw [unchanged]
        exact tested c op (Or.inl before)
    | acquire laco | loop laco | release laco =>
        rw [next] at pc
        cases laco <;> simp [callNext, before, waitNext] at pc
    | waitTest =>
        rw [next] at pc
        simp only [callNext, before, waitNext] at pc
        split at pc <;> simp at pc
    | command =>
        rw [next] at pc
        simp only [callNext, before] at pc
        split at pc <;> simp at pc
    | idle | testVazio | lockConexao | waitLock | waiting | waitUnlock | unlockConexao |
      returned =>
        rw [next] at pc
        simp [callNext, before, waitNext] at pc
  · have before : s.pc c = .setCallbacks ∨ s.pc c = .command := by
      rcases pc_of_not_call executed (fun ret labelEq => own ⟨ret, labelEq⟩) with
        same | ⟨_, entered⟩
      · rwa [same] at pc
      · rw [entered, op] at pc
        simp [entry] at pc
    exact disconnected_of_nonePending (inv.nonePending_of_connect op (Or.inr before)) executed
      notGained (tested c op before)

/-! ## Disconnect calls -/

/-- What the history of a disconnect call says about its position: it takes the
mutex before it issues its command, and the connection state at both events is
the same. -/
structure DisconnectTrace (c : CallId) (history : List (Event State Label)) (s : State) :
    Prop where
  untaken : s.pc c = .idle ∨ s.pc c = .testConectado ∨ s.pc c = .lockConexao →
    ∀ event ∈ history, ¬ TakesConexao c event
  unissued : s.pc c = .idle ∨ s.pc c = .testConectado ∨ s.pc c = .lockConexao ∨
    s.pc c = .command → ∀ event ∈ history, ¬ Issues c event
  taken : s.pc c = .command → (∃ event ∈ history, TakesConexao c event) ∧
    ∀ event ∈ history, TakesConexao c event → event.source.conectado = s.conectado
  issued : ∀ issue ∈ history, Issues c issue → (∃ event ∈ history, TakesConexao c event) ∧
    ∀ event ∈ history, TakesConexao c event →
      event.source.conectado = issue.source.conectado

theorem Inv.nonePending_of_disconnect (inv : Inv program s) {c : CallId}
    (op : program.op c = .desconectar) (pc : s.pc c = .command) : NonePending program s :=
  inv.nonePending (by rw [op]; rfl) (by rw [op, pc]; rfl) (inv.unissued_of_command pc)

/-- An event that does not take the mutex leaves what is known of those that do. -/
theorem taken_cons {c : CallId} {conectado : Bool} {newest : Event State Label}
    {history : List (Event State Label)} (notTaken : ¬ TakesConexao c newest)
    (taken : (∃ event ∈ history, TakesConexao c event) ∧
      ∀ event ∈ history, TakesConexao c event → event.source.conectado = conectado) :
    (∃ event ∈ newest :: history, TakesConexao c event) ∧
      ∀ event ∈ newest :: history, TakesConexao c event →
        event.source.conectado = conectado := by
  constructor
  · obtain ⟨first, member, takes⟩ := taken.1
    exact ⟨first, List.mem_cons_of_mem _ member, takes⟩
  · rw [List.forall_mem_cons]
    exact ⟨fun takes => absurd takes notTaken, taken.2⟩

/-- Other threads' steps leave the trace of a disconnect call as it is. -/
theorem DisconnectTrace.other {c : CallId} {history : List (Event State Label)}
    (trace : DisconnectTrace c history s) (inv : Inv program s)
    (op : program.op c = .desconectar) (executed : step program s label = some t)
    (noLoss : ∀ conectado, label ≠ .network conectado)
    (notCall : ∀ ret, label ≠ .call c ret) :
    DisconnectTrace c (⟨s, label, t⟩ :: history) t := by
  have notTaken : ¬ TakesConexao c ⟨s, label, t⟩ := fun ⟨⟨ret, labelEq⟩, _⟩ => notCall ret labelEq
  have notIssued : ¬ Issues c ⟨s, label, t⟩ := fun ⟨⟨ret, labelEq⟩, _⟩ => notCall ret labelEq
  have moved := pc_of_not_call executed notCall
  rw [op] at moved
  constructor
  · intro pc
    refine List.forall_mem_cons.mpr ⟨notTaken, trace.untaken ?_⟩
    rcases moved with same | ⟨idle, _⟩
    · rwa [same] at pc
    · exact Or.inl idle
  · intro pc
    refine List.forall_mem_cons.mpr ⟨notIssued, trace.unissued ?_⟩
    rcases moved with same | ⟨idle, _⟩
    · rwa [same] at pc
    · exact Or.inl idle
  · intro pc
    have before : s.pc c = .command := by
      rcases moved with same | ⟨_, entered⟩
      · rwa [same] at pc
      · rw [entered] at pc
        cases pc
    rw [conectado_of_nonePending (inv.nonePending_of_disconnect op before) executed noLoss]
    exact taken_cons notTaken (trace.taken before)
  · rw [List.forall_mem_cons]
    constructor
    · exact fun issues => absurd issues notIssued
    · intro issue member issues
      exact taken_cons notTaken (trace.issued issue member issues)

/-- Where the next statement of a disconnect call leads. -/
theorem disconnect_next {c : CallId} {ret : Int}
    (executed : step program s (.call c ret) = some t) (op : program.op c = .desconectar) :
    (s.pc c = .testConectado ∧ (t.pc c = .lockConexao ∨ t.pc c = .returned true)) ∨
      (s.pc c = .lockConexao ∧ t.pc c = .command) ∨
      (s.pc c ≠ .lockConexao ∧ t.pc c ≠ .idle ∧ t.pc c ≠ .testConectado ∧
        t.pc c ≠ .lockConexao ∧ t.pc c ≠ .command) := by
  have next := pc_of_call executed
  have enabled := executed
  rw [op] at next
  simp only [step, op, despachar, Disconnect.despachar] at enabled
  rw [next]
  cases before : s.pc c with
  | testConectado =>
      simp only [callNext, before]
      split <;> simp
  | lockConexao => simp [callNext, before]
  | command =>
      simp only [callNext, before]
      split <;> simp
  | waitTest =>
      simp only [callNext, before, waitNext]
      split <;> simp
  | waitLock | waiting | waitUnlock | unlockConexao => simp [callNext, before, waitNext]
  | idle | testVazio | setCallbacks | acquire | loop | release | returned =>
      simp [before, Contexto.esperar] at enabled

theorem DisconnectTrace.own {c : CallId} {ret : Int} {history : List (Event State Label)}
    (trace : DisconnectTrace c history s)
    (op : program.op c = .desconectar) (executed : step program s (.call c ret) = some t) :
    DisconnectTrace c (⟨s, .call c ret, t⟩ :: history) t := by
  have sameConectado : t.conectado = s.conectado := (despachar_effect executed).conectado
  rcases disconnect_next executed op with ⟨before, after⟩ | ⟨before, after⟩ |
    ⟨before, notIdle, notTest, notLock, notCommand⟩
  · have notTaken : ¬ TakesConexao c ⟨s, .call c ret, t⟩ := by simp [TakesConexao, before]
    have notIssued : ¬ Issues c ⟨s, .call c ret, t⟩ := by simp [Issues, before]
    have noIssue := trace.unissued (Or.inr (Or.inl before))
    constructor
    · intro _
      exact List.forall_mem_cons.mpr ⟨notTaken, trace.untaken (Or.inr (Or.inl before))⟩
    · intro _
      exact List.forall_mem_cons.mpr ⟨notIssued, noIssue⟩
    · intro pc
      rcases after with after | after <;> simp [after] at pc
    · rw [List.forall_mem_cons]
      exact ⟨fun issues => absurd issues notIssued,
        fun issue member issues => absurd issues (noIssue issue member)⟩
  · have takes : TakesConexao c ⟨s, .call c ret, t⟩ := ⟨⟨ret, rfl⟩, before⟩
    have notIssued : ¬ Issues c ⟨s, .call c ret, t⟩ := by simp [Issues, before]
    have none := trace.untaken (Or.inr (Or.inr before))
    have noIssue := trace.unissued (Or.inr (Or.inr (Or.inl before)))
    constructor
    · intro pc
      simp [after] at pc
    · intro _
      exact List.forall_mem_cons.mpr ⟨notIssued, noIssue⟩
    · intro _
      constructor
      · exact ⟨_, List.mem_cons_self, takes⟩
      · rw [List.forall_mem_cons]
        exact ⟨fun _ => sameConectado.symm,
          fun event member taken => absurd taken (none event member)⟩
    · rw [List.forall_mem_cons]
      exact ⟨fun issues => absurd issues notIssued,
        fun issue member issues => absurd issues (noIssue issue member)⟩
  · have notTaken : ¬ TakesConexao c ⟨s, .call c ret, t⟩ := fun ⟨_, pc⟩ => before pc
    constructor
    · rintro (pc | pc | pc)
      · exact absurd pc notIdle
      · exact absurd pc notTest
      · exact absurd pc notLock
    · rintro (pc | pc | pc | pc)
      · exact absurd pc notIdle
      · exact absurd pc notTest
      · exact absurd pc notLock
      · exact absurd pc notCommand
    · intro pc
      exact absurd pc notCommand
    · rw [List.forall_mem_cons]
      constructor
      · exact fun issues => taken_cons notTaken (trace.taken issues.2)
      · intro issue member issues
        exact taken_cons notTaken (trace.issued issue member issues)

end Steps

/-! ## Whole runs -/

section Runs

variable {program : Program} {s : State} {callbackMap : CallbackMap} {conectado : Bool}
  {history : List (Event State Label)}

theorem connectTested_of_run
    (run : Run (step program) (initial callbackMap conectado) history s)
    (notGained : ∀ event ∈ history, event.label ≠ .network true) : ConnectTested program s := by
  induction run with
  | refl =>
      intro c op pc
      rcases pc with pc | pc <;> cases pc
  | tail run executed ih =>
      obtain ⟨notNow, notBefore⟩ := List.forall_mem_cons.mp notGained
      exact connectTested_step (Inv.of_run run) (ih notBefore) executed notNow

theorem disconnectTrace_of_run
    (run : Run (step program) (initial callbackMap conectado) history s)
    (noLoss : NoLoss history) {c : CallId} (op : program.op c = .desconectar) :
    DisconnectTrace c history s := by
  induction run with
  | refl =>
      constructor
      · intro _ event member
        cases member
      · intro _ event member
        cases member
      · intro pc
        cases pc
      · intro event member
        cases member
  | @tail history source target label run executed ih =>
      obtain ⟨lossless, older⟩ := List.forall_mem_cons.mp noLoss
      by_cases own : ∃ ret, label = .call c ret
      · obtain ⟨ret, rfl⟩ := own
        exact (ih older).own op executed
      · apply (ih older).other (Inv.of_run run) op executed lossless
        intro ret labelEq
        exact own ⟨ret, labelEq⟩

/-- Without connection losses, the commands of a run are all guarded exactly
when every disconnect call that issued its command found the client connected
at the moment it took `_conexao_mtx`. -/
theorem commands_guarded_iff (program : Program) (callbackMap : CallbackMap) (conectado : Bool)
    (history : List (Event State Label)) (s : State)
    (run : Run (step program) (initial callbackMap conectado) history s)
    (noLoss : NoLoss history) :
    (∀ event ∈ history, Guarded program event) ↔ LockedConnected program history := by
  constructor
  · rintro guarded c op ⟨issue, issueMember, issues⟩ event member takes
    have trace := disconnectTrace_of_run run noLoss op
    rw [(trace.issued issue issueMember issues).2 event member takes]
    exact ((guarded issue issueMember c issues).2 op).1
  · intro locked issue member c issues
    obtain ⟨later, earlier, split⟩ := List.append_of_mem member
    have before : Run (step program) (initial callbackMap conectado) earlier issue.source := by
      rw [split] at run
      exact run.split.1
    have inv := Inv.of_run before
    constructor
    · intro op
      have notGained : ∀ event ∈ earlier, event.label ≠ .network true := by
        intro event older
        apply noLoss
        rw [split]
        exact List.mem_append_right _ (List.mem_cons_of_mem _ older)
      exact ⟨connectTested_of_run before notGained c op (Or.inr issues.2),
        inv.nonePending_of_connect op (Or.inr (Or.inr issues.2))⟩
    · intro op
      have trace := disconnectTrace_of_run run noLoss op
      obtain ⟨⟨event, eventMember, takes⟩, equal⟩ := trace.issued issue member issues
      refine ⟨?_, inv.nonePending_of_disconnect op issues.2⟩
      rw [← equal event eventMember takes]
      exact locked c op ⟨issue, member, issues⟩ event eventMember takes

end Runs

/-- One connect call among disconnect calls. -/
def programaDeConexao : Program where
  op c := if c = 2 then .conectar else .desconectar
  topico _ := []

/-- The connect call succeeds. -/
def conexao : List Label :=
  [.start 2, .call 2 0, .call 2 0, .call 2 0, .call 2 0, .complete 2 (.onSuccess ⟨0, [], 0⟩),
    .deliver 2, .handler 2, .handler 2, .handler 2, .handler 2, .handler 2, .handler 2,
    .call 2 0, .call 2 0, .call 2 0, .call 2 0]

/-- Both disconnect calls pass their test; the first one disconnects and
returns. -/
def desconexao : List Label :=
  [.start 0, .start 1, .call 0 0, .call 1 0, .call 0 0, .call 0 0,
    .complete 0 (.onSuccess ⟨0, [], 0⟩), .deliver 0, .handler 0, .handler 0, .handler 0,
    .handler 0, .handler 0, .handler 0, .call 0 0, .call 0 0, .call 0 0, .call 0 0]

theorem commands_guarded_iff_alternating :
    ∃ history s, Run (step programaDeConexao) (initial (fun _ => none) false) history s ∧
      (∃ event ∈ history, Issues 0 event) ∧ (∃ event ∈ history, Issues 2 event) ∧
      ∀ event ∈ history, Guarded programaDeConexao event := by
  obtain ⟨s, run, -⟩ := exists_run_of_execute (step programaDeConexao)
    (initial (fun _ => none) false) (conexao ++ desconexao)
    (fun s => s.pc 0) (.returned true) (by decide)
  obtain ⟨first, firstMember, firstFound⟩ := exists_mem_eventsOf
    (step programaDeConexao) (initial (fun _ => none) false)
    (conexao ++ desconexao)
    (fun event => event.label == .call 0 0 && event.source.pc 0 == .command) (by decide)
  obtain ⟨second, secondMember, secondFound⟩ := exists_mem_eventsOf
    (step programaDeConexao) (initial (fun _ => none) false)
    (conexao ++ desconexao)
    (fun event => event.label == .call 2 0 && event.source.pc 2 == .command) (by decide)
  have connected := forall_mem_eventsOf (step programaDeConexao)
    (initial (fun _ => none) false) (conexao ++ desconexao)
    (atCalls fun c s => c == 2 || s.pc c != .lockConexao || s.conectado) (by decide)
  simp only [Bool.and_eq_true, beq_iff_eq] at firstFound secondFound
  refine ⟨_, s, run, ⟨first, firstMember, ⟨0, firstFound.1⟩, firstFound.2⟩,
    ⟨second, secondMember, ⟨0, secondFound.1⟩, secondFound.2⟩,
    (commands_guarded_iff _ _ _ _ _ run ?_).mpr ?_⟩
  · intro event member
    have lossless : ∀ label ∈ conexao ++ desconexao, ∀ conectado, label ≠ .network conectado := by
      decide
    exact lossless _ (label_mem_of_mem_eventsOf member)
  · rintro c op - event member ⟨⟨ret, labelEq⟩, pc⟩
    have passed := connected event member
    simp only [atCalls, labelEq, pc] at passed
    have other : c ≠ 2 := by
      rintro rfl
      cases op
    simpa [other] using passed

/-- After the first disconnect call has returned, the second one takes the mutex
and issues its command on the disconnected client. -/
theorem commands_not_always_guarded :
    ¬ ∀ (program : Program) (callbackMap : CallbackMap) (conectado : Bool)
      (history : List (Event State Label)) (s : State),
      Run (step program) (initial callbackMap conectado) history s → NoLoss history →
        ∀ event ∈ history, Guarded program event := by
  intro guarded
  obtain ⟨s, run, -⟩ := exists_run_of_execute (step programaDeConexao)
    (initial (fun _ => none) false)
    (conexao ++ desconexao ++ [.call 1 0, .call 1 0])
    (fun s => s.pc 1) (.waitLock) (by decide)
  obtain ⟨event, member, found⟩ := exists_mem_eventsOf (step programaDeConexao)
    (initial (fun _ => none) false)
    (conexao ++ desconexao ++ [.call 1 0, .call 1 0])
    (fun event => event.label == .call 1 0 && event.source.pc 1 == .command &&
      !event.source.conectado) (by decide)
  simp only [Bool.and_eq_true, beq_iff_eq, Bool.not_eq_true'] at found
  obtain ⟨⟨labelEq, pc⟩, disconnected⟩ := found
  have lossless : ∀ label ∈ conexao ++ desconexao ++ [.call 1 0, .call 1 0],
      ∀ conectado, label ≠ Label.network conectado := by
    decide
  have noLoss : NoLoss (eventsOf (step programaDeConexao) (initial (fun _ => none) false)
      (conexao ++ desconexao ++ [.call 1 0, .call 1 0])).reverse := by
    intro event member
    exact lossless _ (label_mem_of_mem_eventsOf member)
  have connected := ((guarded _ _ _ _ _ run noLoss event member 1 ⟨⟨0, labelEq⟩, pc⟩).2 rfl).1
  rw [disconnected] at connected
  cases connected

end PahoClient
