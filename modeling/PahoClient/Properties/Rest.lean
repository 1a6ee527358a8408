import PahoClient.Client.Messages

/-!
# A client whose calls have all returned

The completion handler of a command ends before its call returns.  So when every
call has returned, no handler is under way or to come, `_conexao_mtx` and the
mutex, the flag and the queue of every context are as they were constructed, and
only `mensagemRecebida` still runs.  The `_res` of a context keeps what the last
handler has stored in it.
-/

namespace PahoClient

open PahoClient.Transition

/-- No call and no command is under way, nobody holds or waits for anything but
the table's lock, and no `_finalizada` is set. -/
structure Repouso (s : State) : Prop where
  call : ∀ c, (s.pc c).inProgress = false
  request : ∀ c, (s.request c).outstanding = false
  conexao : s.conexaoMtx = none
  contexto : ∀ x, (s.contexto x).Quiet

/-- The steps of `mensagemRecebida` and of the network. -/
def Label.passivo : Label → Bool
  | .arrive _ | .message _ _ | .network _ => true
  | .start _ | .call _ _ | .wake _ | .complete _ _ | .deliver _ | .handler _ => false

section Rest

variable {program : Program} {s t : State} {label : Label} {history : List (Event State Label)}

/-- A call that is not in progress has no command under way. -/
theorem Inv.not_outstanding (inv : Inv program s) {c : CallId}
    (resting : (s.pc c).inProgress = false) : (s.request c).outstanding = false := by
  have progress := inv.progress c
  cases pc : s.pc c with
  | idle =>
      rw [pc] at progress
      rw [show s.request c = .unissued from progress]
      rfl
  | returned value =>
      rw [pc] at progress
      rcases progress with unissued | ⟨ret, rejected, _⟩ | ⟨res, done, _⟩
      · rw [unissued]
        rfl
      · rw [rejected]
        rfl
      · rw [done]
        rfl
  | _ =>
      rw [pc] at resting
      cases resting

/-- A call that is not in progress leaves the context it owns quiet. -/
theorem Inv.quiet_of_resting (inv : Inv program s) {c : CallId}
    (resting : (s.pc c).inProgress = false) (owner : owns (program.op c) (s.pc c) = true) :
    (s.contexto (contextOf (program.op c) c)).Quiet := by
  have agrees := inv.agrees c owner
  have progress := inv.progress c
  cases pc : s.pc c with
  | idle =>
      rw [pc] at progress agrees
      rw [show s.request c = .unissued from progress] at agrees
      exact agrees.quiet_of_not_accepted rfl rfl rfl
  | returned value =>
      rw [pc] at progress agrees
      rcases progress with unissued | ⟨ret, rejected, _⟩ | ⟨res, done, _⟩
      · rw [unissued] at agrees
        exact agrees.quiet_of_not_accepted rfl rfl rfl
      · rw [rejected] at agrees
        exact agrees.quiet_of_not_accepted rfl rfl rfl
      · rw [done] at agrees
        exact agrees.quiet_of_done rfl rfl
  | _ =>
      rw [pc] at resting
      cases resting

/-- When every call has returned the client is at rest. -/
theorem Inv.repouso (inv : Inv program s) (resting : ∀ c, (s.pc c).inProgress = false) :
    Repouso s where
  call := resting
  request c := inv.not_outstanding (resting c)
  conexao := by
    rw [Option.eq_none_iff_forall_ne_some]
    intro c held
    have owner := (inv.mutex c (inv.holder c held)).mpr held
    have uses := inv.holder c held
    have still := resting c
    cases op : program.op c <;> cases pc : s.pc c <;>
      simp_all [owns, Pc.inProgress, Operation.usesConexao]
  contexto x := by
    by_cases owned : ∃ c, owns (program.op c) (s.pc c) = true ∧ contextOf (program.op c) c = x
    · obtain ⟨c, owner, rfl⟩ := owned
      exact inv.quiet_of_resting (resting c) owner
    · apply inv.quiet x
      intro c owner here
      exact owned ⟨c, owner, here⟩

/-- Unless a call starts, a client at rest runs `mensagemRecebida` only, and
stays at rest with the table it has. -/
theorem Repouso.step (rest : Repouso s) (notStart : ∀ c, label ≠ .start c)
    (executed : PahoClient.step program s label = some t) :
    label.passivo = true ∧ Repouso t ∧ t.callbackMap = s.callbackMap := by
  have same : t.pc = s.pc → t.request = s.request → t.conexaoMtx = s.conexaoMtx →
      t.contexto = s.contexto → Repouso t := by
    intro pc request conexao contexto
    constructor
    · rw [pc]
      exact rest.call
    · rw [request]
      exact rest.request
    · rw [conexao]
      exact rest.conexao
    · rw [contexto]
      exact rest.contexto
  cases label with
  | start c => exact absurd rfl (notStart c)
  | call c ret =>
      have refused := despachar_of_resting (program.op c) ret (rest.call c)
      exact absurd (refused.symm.trans executed) (by simp)
  | wake c =>
      simp [PahoClient.step, Contexto.acordar, (rest.contexto _).blocked] at executed
  | complete c res =>
      cases step_effect executed with
      | complete pending _ =>
          have outstanding := rest.request c
          rw [pending] at outstanding
          cases outstanding
  | deliver c =>
      cases step_effect executed with
      | deliver ready =>
          have outstanding := rest.request c
          rw [ready] at outstanding
          cases outstanding
  | handler c =>
      cases step_effect executed with
      | handler running _ =>
          have outstanding := rest.request c
          rw [running] at outstanding
          cases outstanding
  | arrive m =>
      cases step_effect executed
      exact ⟨rfl, same rfl rfl rfl rfl, rfl⟩
  | message m ret =>
      cases step_effect executed with
      | message messageStep =>
          have frame := mensagemRecebida_frame messageStep
          exact ⟨rfl, same frame.pc frame.request frame.conexaoMtx frame.contexto,
            frame.callbackMap⟩
  | network conectado =>
      cases step_effect executed
      exact ⟨rfl, same rfl rfl rfl rfl, rfl⟩

/-- The same along a run in which no call starts. -/
theorem Repouso.run (rest : Repouso s) (run : Run (PahoClient.step program) s history t)
    (noStart : ∀ event ∈ history, ∀ c, event.label ≠ .start c) :
    (∀ event ∈ history, event.label.passivo = true) ∧ Repouso t ∧
      t.callbackMap = s.callbackMap := by
  induction run with
  | refl => exact ⟨by simp, rest, rfl⟩
  | @tail history source target label _ executed ih =>
      obtain ⟨notNow, notBefore⟩ := List.forall_mem_cons.mp noStart
      obtain ⟨passive, before, map⟩ := ih notBefore
      obtain ⟨passes, after, same⟩ := before.step notNow executed
      exact ⟨List.forall_mem_cons.mpr ⟨passes, passive⟩, after, same.trans map⟩

end Rest

/-- Whatever the threads have done, once every call has returned nothing of them
is under way: no command is, `_conexao_mtx` and the mutex, the flag and the queue
of every context are as they were constructed, and until another call starts no
completion handler runs and the table does not change.  Only messages still
arrive. -/
theorem at_rest_between_calls (program : Program) (callbackMap : CallbackMap) (conectado : Bool)
    {history : List (Event State Label)} {s : State}
    (run : Run (step program) (initial callbackMap conectado) history s)
    (returned : ∀ c, (s.pc c).inProgress = false) :
    Repouso s ∧ ∀ later t, Run (step program) s later t →
      (∀ event ∈ later, ∀ c, event.label ≠ .start c) →
        (∀ event ∈ later, event.label.passivo = true) ∧ Repouso t ∧
          t.callbackMap = s.callbackMap := by
  have rest := (Inv.of_run run).repouso returned
  exact ⟨rest, fun later t continued noStart => rest.run continued noStart⟩

/-- Two connect calls at once. -/
def programaEmRepouso : Program where
  op _ := .conectar
  topico _ := []

/-- The second call waits for the first at `_conexao_mtx`, which fails, and
fails in its turn. -/
def duasTentativasDeConexao : List Label :=
  [Label.start 0, .start 1, .call 0 0, .call 0 0, .call 0 0, .call 0 0,
    .complete 0 (.onFailure none), .deliver 0] ++ List.replicate 6 (Label.handler 0) ++
    List.replicate 4 (Label.call 0 0) ++ [Label.call 1 0, .call 1 0, .call 1 (-1), .call 1 0]

theorem at_rest_between_calls_concurrent :
    ∃ history s, Run (step programaEmRepouso) (initial (fun _ => none) false) history s ∧
      s.pc 0 = .returned false ∧ s.pc 1 = .returned false ∧ Repouso s := by
  obtain ⟨s, run, view⟩ := exists_run_of_execute (step programaEmRepouso)
    (initial (fun _ => none) false) duasTentativasDeConexao (fun s => (s.pc 0, s.pc 1))
    (.returned false, .returned false) (by decide)
  simp only [Prod.mk.injEq] at view
  refine ⟨_, s, run, view.1, view.2, ?_⟩
  apply (at_rest_between_calls _ _ _ run _).1
  intro c
  by_cases first : c = 0
  · rw [first, view.1]
    rfl
  by_cases second : c = 1
  · rw [second, view.2]
    rfl
  have idle : s.pc c = .idle := by
    refine (resting_of_run run rfl ?_).1
    intro event member started
    have named := label_mem_of_mem_eventsOf member
    rw [started] at named
    simp [duasTentativasDeConexao, first, second] at named
  rw [idle]
  rfl

end PahoClient
