import PahoClient.Properties.Serialisation
import PahoClient.Properties.Silence

/-!
# Callbacks are set once, before the first connect command

The library wants the callbacks of a client while the client is disconnected and
idle.  `_primeira_tentativa` remembers whether they have been accepted: it is
read and written under `_conexao_mtx` only, by the connect call that holds it.
-/

namespace PahoClient

open PahoClient.Transition

/-! ## Events of a connect call -/

/-- The call `c` hands the callbacks to the library, which returns `ret`. -/
def CallsSetCallbacks (program : Program) (c : CallId) (ret : Int) (event : Event State Label) :
    Prop :=
  program.op c = .conectar ∧ event.label = .call c ret ∧ event.source.pc c = .setCallbacks

/-- The library has accepted the callbacks. -/
def CallbacksSet (program : Program) (history : List (Event State Label)) : Prop :=
  ∃ event ∈ history, ∃ c, CallsSetCallbacks program c MQTTASYNC_SUCCESS event

/-- A call tests the connection and finds the client disconnected. -/
def FindsDisconnected (c : CallId) (event : Event State Label) : Prop :=
  (∃ ret, event.label = .call c ret) ∧ event.source.pc c = .testConectado ∧
    event.source.conectado = false

/-- What one event of a run respects, given the events before it. -/
structure SetUpOnce (program : Program) (earlier : List (Event State Label))
    (event : Event State Label) : Prop where
  /-- Connect commands come after the callbacks are set. -/
  beforeConnect : ∀ c, program.op c = .conectar → Issues c event → CallbacksSet program earlier
  /-- Callbacks that are set are not set again. -/
  once : ∀ c ret, CallsSetCallbacks program c ret event → ¬ CallbacksSet program earlier
  /-- Callbacks are set on an idle and disconnected client. -/
  disconnected : ∀ c ret, CallsSetCallbacks program c ret event →
    event.source.conectado = false ∧ NonePending program event.source
  /-- A connect call that finds the client disconnected goes on to set the
  callbacks exactly when they are not set. -/
  again : ∀ c, program.op c = .conectar → FindsDisconnected c event →
    (event.target.pc c = .setCallbacks ↔ ¬ CallbacksSet program earlier)
  /-- A connect call that fails leaves `_conexao_mtx` free. -/
  free : ∀ c, program.op c = .conectar → Returns c false event →
    event.target.conexaoMtx = none
  /-- After a connect call that fails, the next one is not blocked: its third step
  decides whether to set the callbacks. -/
  next : ∀ c, program.op c = .conectar → Returns c false event →
    ∀ d, program.op d = .conectar → event.target.pc d = .idle →
      event.target.conectado = false → ∃ s,
        execute (step program) event.target [.start d, .call d 0, .call d 0] = some s ∧
          (s.pc d = .setCallbacks ↔ ¬ CallbacksSet program (event :: earlier))

/-! ## The flag -/

section Steps

variable {program : Program} {s t : State} {label : Label}

/-- Only a call of `setCallbacks` that the library accepts clears the flag. -/
theorem primeiraTentativa_step (executed : step program s label = some t) :
    t.primeiraTentativa = s.primeiraTentativa ∧
        (∀ c, ¬ CallsSetCallbacks program c MQTTASYNC_SUCCESS ⟨s, label, t⟩) ∨
      t.primeiraTentativa = false ∧
        ∃ c, CallsSetCallbacks program c MQTTASYNC_SUCCESS ⟨s, label, t⟩ := by
  cases step_effect executed with
  | call _ effect =>
      rcases effect.primeiraTentativa with ⟨same, other⟩ | ⟨cleared, op, pc, rfl⟩
      · refine Or.inl ⟨same, ?_⟩
        rintro d ⟨op, labelEq, pc⟩
        cases labelEq
        exact other ⟨op, pc, rfl⟩
      · exact Or.inr ⟨cleared, _, op, rfl, pc⟩
  | handler _ effect => exact Or.inl ⟨effect.primeiraTentativa, by simp [CallsSetCallbacks]⟩
  | message messageStep =>
      exact Or.inl ⟨(mensagemRecebida_frame messageStep).primeiraTentativa,
        by simp [CallsSetCallbacks]⟩
  | start | wake | complete | deliver | arrive | network =>
      exact Or.inl ⟨rfl, by simp [CallsSetCallbacks]⟩

/-- Where the next statement of a connect call leads. -/
theorem connect_next {c : CallId} {ret : Int}
    (executed : step program s (.call c ret) = some t) (op : program.op c = .conectar) :
    (t.pc c = .setCallbacks → s.pc c = .testConectado ∧ s.primeiraTentativa = true) ∧
      (t.pc c = .command → s.pc c = .testConectado ∧ s.primeiraTentativa = false ∨
        s.pc c = .setCallbacks ∧ ret = MQTTASYNC_SUCCESS) ∧
      ∀ value, t.pc c = .returned value → s.pc c = .unlockConexao value := by
  have next := pc_of_call executed
  have enabled := executed
  rw [op] at next
  simp only [step, op, despachar, Connect.despachar] at enabled
  rw [next]
  cases before : s.pc c with
  | testConectado =>
      simp only [callNext, before]
      cases s.conectado <;> cases s.primeiraTentativa <;> simp
  | setCallbacks =>
      simp only [callNext, before]
      split_ifs with accepted <;> simp [accepted]
  | command =>
      simp only [callNext, before]
      split <;> simp
  | waitTest =>
      simp only [callNext, before, waitNext]
      split <;> simp
  | lockConexao | waitLock | waiting | waitUnlock | unlockConexao =>
      simp [callNext, before, waitNext]
  | idle | testVazio | acquire | loop | release | returned =>
      simp [before, Contexto.esperar] at enabled

/-- A connect call that returns releases `_conexao_mtx`. -/
theorem conexaoMtx_of_returned (executed : step program s label = some t) {c : CallId}
    {value : Bool} (op : program.op c = .conectar) (progressing : (s.pc c).inProgress = true)
    (returned : t.pc c = .returned value) : t.conexaoMtx = none := by
  rcases pc_cases executed c with same | ⟨_, idle, _⟩ | ⟨ret, rfl, enabled, _⟩
  · rw [← same, returned] at progressing
    cases progressing
  · rw [idle] at progressing
    cases progressing
  · have unlocking := (connect_next executed op).2.2 value returned
    simp only [op, despachar, Connect.despachar, unlocking, unlockConexao] at enabled
    cases enabled
    rfl

/-- What the flag says about the history, and what the connect call that holds
`_conexao_mtx` knows about the flag. -/
structure SetupInv (program : Program) (history : List (Event State Label)) (s : State) :
    Prop where
  attempted : s.primeiraTentativa = false ↔ CallbacksSet program history
  setting : ∀ c, program.op c = .conectar → s.pc c = .setCallbacks → s.primeiraTentativa = true
  connecting : ∀ c, program.op c = .conectar → s.pc c = .command → s.primeiraTentativa = false

theorem callbacksSet_cons {event : Event State Label} {history : List (Event State Label)} :
    CallbacksSet program (event :: history) ↔
      (∃ c, CallsSetCallbacks program c MQTTASYNC_SUCCESS event) ∨
        CallbacksSet program history := by
  simp [CallbacksSet]

/-- Two connect calls do not hold `_conexao_mtx` together. -/
theorem Inv.connect_unique (inv : Inv program s) {c d : CallId}
    (first : program.op c = .conectar) (second : program.op d = .conectar)
    (ownsFirst : owns .conectar (s.pc c) = true) (ownsSecond : owns .conectar (s.pc d) = true) :
    c = d :=
  inv.owner_unique (by rwa [first]) (by rwa [second]) (by rw [first, second]; rfl)

theorem setupInv_step {history : List (Event State Label)} (inv : Inv program s)
    (setup : SetupInv program history s) (executed : step program s label = some t) :
    SetupInv program (⟨s, label, t⟩ :: history) t := by
  have flag := primeiraTentativa_step executed
  constructor
  · rw [callbacksSet_cons]
    rcases flag with ⟨same, none⟩ | ⟨cleared, found⟩
    · rw [same, setup.attempted]
      exact ⟨Or.inr, fun set => set.resolve_left fun ⟨c, calls⟩ => none c calls⟩
    · exact ⟨fun _ => Or.inl found, fun _ => cleared⟩
  · intro c op pc
    rcases pc_cases executed c with same | ⟨_, _, entered⟩ | ⟨ret, rfl, _⟩
    · rw [same] at pc
      rcases flag with ⟨unchanged, _⟩ | ⟨_, d, calls⟩
      · rw [unchanged]
        exact setup.setting c op pc
      · obtain ⟨otherOp, labelEq, otherPc⟩ := calls
        have equal : c = d :=
          inv.connect_unique op otherOp (by rw [pc]; rfl) (by rw [otherPc]; rfl)
        subst d labelEq
        have left := (connect_next executed op).1 (by rw [same, pc])
        rw [pc] at left
        cases left.1
    · rw [entered, op] at pc
      cases pc
    · obtain ⟨before, first⟩ := (connect_next executed op).1 pc
      rcases flag with ⟨unchanged, _⟩ | ⟨_, d, _, labelEq, otherPc⟩
      · rw [unchanged]
        exact first
      · cases labelEq
        rw [before] at otherPc
        cases otherPc
  · intro c op pc
    rcases flag with ⟨unchanged, none⟩ | ⟨cleared, _⟩
    · rw [unchanged]
      rcases pc_cases executed c with same | ⟨_, _, entered⟩ | ⟨ret, rfl, _⟩
      · rw [same] at pc
        exact setup.connecting c op pc
      · rw [entered, op] at pc
        cases pc
      · rcases (connect_next executed op).2.1 pc with ⟨_, notFirst⟩ | ⟨before, rfl⟩
        · exact notFirst
        · exact absurd ⟨op, rfl, before⟩ (none c)
    · exact cleared

end Steps

/-! ## Whole runs -/

section Runs

variable {program : Program} {s : State} {callbackMap : CallbackMap} {conectado : Bool}
  {history : List (Event State Label)}

theorem setupInv_of_run
    (run : Run (step program) (initial callbackMap conectado) history s) :
    SetupInv program history s := by
  induction run with
  | refl =>
      constructor
      · simp [initial, CallbacksSet]
      · intro c _ pc
        cases pc
      · intro c _ pc
        cases pc
  | tail run executed ih => exact setupInv_step (Inv.of_run run) ih executed

/-- Under a free mutex a connect call reaches the test of the connection, and the
flag decides where it goes from there. -/
theorem execute_connect {c : CallId} (op : program.op c = .conectar) (idle : s.pc c = .idle)
    (free : s.conexaoMtx = none) (disconnected : s.conectado = false) :
    ∃ t, execute (step program) s [.start c, .call c 0, .call c 0] = some t ∧
      t.pc c = if s.primeiraTentativa then .setCallbacks else .command := by
  cases first : s.primeiraTentativa <;>
    simp [execute, step, op, idle, free, disconnected, first, despachar, Connect.despachar,
      lockConexao, goto, entry, State.setPc]

/-- In every run of a client that becomes connected only through its own
commands, the callbacks are set once, before the first connect command, and
never on a connected or busy client. -/
theorem callbacks_set_once (program : Program) (callbackMap : CallbackMap)
    (history : List (Event State Label)) (s : State)
    (run : Run (step program) (initial callbackMap false) history s)
    (notGained : ∀ event ∈ history, event.label ≠ .network true) :
    ∀ later event earlier, history = later ++ event :: earlier →
      SetUpOnce program earlier event := by
  rintro later event earlier rfl
  obtain ⟨before, executed, _⟩ := run.split
  have inv := Inv.of_run before
  have setup := setupInv_of_run before
  constructor
  · intro c op issues
    exact setup.attempted.mp (setup.connecting c op issues.2)
  · rintro c ret ⟨op, _, pc⟩ set
    have cleared := setup.attempted.mpr set
    rw [setup.setting c op pc] at cleared
    cases cleared
  · rintro c ret ⟨op, _, pc⟩
    constructor
    · apply connectTested_of_run before _ c op (Or.inl pc)
      intro older member
      apply notGained
      exact List.mem_append_right _ (List.mem_cons_of_mem _ member)
    · exact inv.nonePending_of_connect op (Or.inr (Or.inl pc))
  · rintro c op ⟨⟨ret, labelEq⟩, pc, disconnected⟩
    rw [labelEq] at executed
    rw [← setup.attempted, pc_of_call executed, op]
    simp only [callNext, pc, disconnected]
    cases event.source.primeiraTentativa <;> simp
  · intro c op returns
    exact conexaoMtx_of_returned executed op returns.1 returns.2
  · intro c op returns d otherOp idle disconnected
    have after := setupInv_step inv setup executed
    obtain ⟨t, reached, decided⟩ :=
      execute_connect otherOp idle (conexaoMtx_of_returned executed op returns.1 returns.2)
        disconnected
    refine ⟨t, reached, ?_⟩
    rw [decided, ← after.attempted]
    cases event.target.primeiraTentativa <;> simp

end Runs

/-- Every call connects. -/
def programaDeTentativas : Program where
  op _ := .conectar
  topico _ := []

/-- The first connect call fails to set the callbacks, the second one sets them
and has its command rejected, and the third one connects; after a loss the
fourth one issues its command again. -/
def tentativasDeConexao : List Label :=
  [.start 0, .call 0 0, .call 0 0, .call 0 (-1), .call 0 0,
    .start 1, .call 1 0, .call 1 0, .call 1 0, .call 1 (-1), .call 1 0,
    .start 2, .call 2 0, .call 2 0, .call 2 0, .complete 2 (.onSuccess ⟨0, [], 0⟩), .deliver 2,
    .handler 2, .handler 2, .handler 2, .handler 2, .handler 2, .handler 2,
    .call 2 0, .call 2 0, .call 2 0, .call 2 0, .network false,
    .start 3, .call 3 0, .call 3 0, .call 3 0]

theorem callbacks_set_once_retried :
    ∃ history s, Run (step programaDeTentativas) (initial (fun _ => none) false) history s ∧
      (∀ c, c < 2 → s.pc c = .returned false) ∧ s.pc 2 = .returned true ∧ s.pc 3 = .waitLock ∧
      ∀ later event earlier, history = later ++ event :: earlier →
        SetUpOnce programaDeTentativas earlier event := by
  obtain ⟨s, run, viewed⟩ := exists_run_of_execute (step programaDeTentativas)
    (initial (fun _ => none) false) tentativasDeConexao
    (fun s => (s.pc 0, s.pc 1, s.pc 2, s.pc 3))
    (.returned false, .returned false, .returned true, .waitLock) (by decide)
  simp only [Prod.mk.injEq] at viewed
  have lossesOnly : ∀ label ∈ tentativasDeConexao, label ≠ Label.network true := by
    decide
  have notGained : ∀ event ∈ (eventsOf (step programaDeTentativas)
      (initial (fun _ => none) false) tentativasDeConexao).reverse,
      event.label ≠ .network true := by
    intro event member
    exact lossesOnly _ (label_mem_of_mem_eventsOf member)
  refine ⟨_, s, run, ?_, viewed.2.2.1, viewed.2.2.2, callbacks_set_once _ _ _ _ run notGained⟩
  intro c small
  match c, small with
  | 0, _ => exact viewed.1
  | 1, _ => exact viewed.2.1

end PahoClient
