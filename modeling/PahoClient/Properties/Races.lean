import PahoClient.Client.Locks

/-!
# No data race

Four members of the client are used by several threads and are not synchronised
by themselves: the table, `_primeira_tentativa`, and `_res` and `_finalizada` of
every context.  `_res` is written outside the mutex under which it is read; the
order of the flag and the result is what keeps the two apart.
-/

namespace PahoClient

open PahoClient.Sync
open PahoClient.Transition

/-- A data member that more than one thread uses. -/
inductive Membro where
  | callbackMap
  | primeiraTentativa
  | res (x : ContextId)
  | finalizada (x : ContextId)
  deriving DecidableEq, Repr

/-- The use of a member by a statement. -/
structure Acesso where
  membro : Membro
  escreve : Bool
  deriving DecidableEq, Repr

/-- The accesses of the next statement of a call.  The predicate of `wait`, the
reset of the flag and the read of the result are one statement under the mutex. -/
def acessosDaChamada (op : Operation) (c : CallId) (s : State) : List Acesso :=
  match op, s.pc c with
  | .conectar, .testConectado => if s.conectado then [] else [⟨.primeiraTentativa, false⟩]
  | .conectar, .setCallbacks => [⟨.primeiraTentativa, true⟩]
  | .subscribe _, .loop _ | .unsubscribe _, .loop _ => [⟨.callbackMap, true⟩]
  | op, .waitTest =>
      if (s.contexto (contextOf op c)).finalizada then
        [⟨.finalizada (contextOf op c), true⟩, ⟨.res (contextOf op c), false⟩]
      else [⟨.finalizada (contextOf op c), false⟩]
  | _, _ => []

/-- The accesses of the next statement of a handler. -/
def acessosDoHandler (op : Operation) (c : CallId) : Request → List Acesso
  | .running _ .loop => [⟨.callbackMap, true⟩]
  | .running _ (.store _) => [⟨.res (contextOf op c), true⟩]
  | .running _ .mark => [⟨.finalizada (contextOf op c), true⟩]
  | _ => []

/-- The accesses of the next statement of a run of `mensagemRecebida`. -/
def acessosDaMensagem : MessagePc → List Acesso
  | .lookup => [⟨.callbackMap, false⟩]
  | _ => []

/-- The accesses of the next statement of a thread. -/
def acessos (program : Program) (s : State) : Agent → List Acesso
  | .call c => acessosDaChamada (program.op c) c s
  | .handler c => acessosDoHandler (program.op c) c (s.request c)
  | .message m => acessosDaMensagem (s.delivery m).pc

/-- Two threads are about to use one member, and one of them writes it. -/
def Corrida (program : Program) (s : State) (first second : Agent) : Prop :=
  first ≠ second ∧ ∃ membro escreve escreve',
    ⟨membro, escreve⟩ ∈ acessos program s first ∧
      ⟨membro, escreve'⟩ ∈ acessos program s second ∧ (escreve || escreve') = true

section Accesses

variable {program : Program} {s : State} {agent first second : Agent} {escreve escreve' : Bool}
  {x : ContextId}

/-! ## Who accesses what -/

/-- A thread that uses the table is in a section of its kind. -/
theorem section_of_callbackMap (access : ⟨.callbackMap, escreve⟩ ∈ acessos program s agent) :
    (escreve = true ∧ s.writesMap agent = true) ∨ escreve = false ∧ s.readsMap agent = true := by
  cases agent with
  | call c =>
      left
      simp only [acessos, acessosDaChamada] at access
      split at access <;> try split at access
      all_goals simp_all [State.writesMap, Pc.writesMap]
  | handler c =>
      left
      simp only [acessos, acessosDoHandler] at access
      split at access
      all_goals simp_all [State.writesMap, Request.writesMap]
  | message m =>
      right
      simp only [acessos, acessosDaMensagem] at access
      split at access
      all_goals simp_all [State.readsMap, MessagePc.readsMap]

/-- Only the holder of `_conexao_mtx` uses `_primeira_tentativa`. -/
theorem holder_of_primeiraTentativa (inv : Inv program s)
    (access : ⟨.primeiraTentativa, escreve⟩ ∈ acessos program s agent) :
    ∃ c, agent = .call c ∧ s.conexaoMtx = some c := by
  cases agent with
  | call c =>
      refine ⟨c, rfl, ?_⟩
      simp only [acessos, acessosDaChamada] at access
      split at access <;> try split at access
      case h_1.isFalse op pc _ =>
          apply (inv.mutex c (by rw [op]; rfl)).mp
          rw [op, pc]
          rfl
      case h_2 op pc =>
          apply (inv.mutex c (by rw [op]; rfl)).mp
          rw [op, pc]
          rfl
      all_goals simp at access
  | handler c =>
      simp only [acessos, acessosDoHandler] at access
      split at access <;> simp at access
  | message m =>
      simp only [acessos, acessosDaMensagem] at access
      split at access <;> simp at access

/-- A call that uses its context is testing the predicate of `wait`. -/
theorem acessosDaChamada_contexto {op : Operation} {c : CallId} {membro : Membro}
    (ofContexto : membro = .res x ∨ membro = .finalizada x)
    (access : ⟨membro, escreve⟩ ∈ acessosDaChamada op c s) :
    s.pc c = .waitTest ∧ x = contextOf op c ∧
      (membro = .res x → escreve = false ∧ (s.contexto x).finalizada = true) := by
  simp only [acessosDaChamada] at access
  split at access <;> try split at access
  all_goals rcases ofContexto with rfl | rfl <;> simp_all

/-- A handler that uses a context stores its result or sets its flag. -/
theorem acessosDoHandler_contexto {op : Operation} {c : CallId} {request : Request}
    {membro : Membro} (ofContexto : membro = .res x ∨ membro = .finalizada x)
    (access : ⟨membro, escreve⟩ ∈ acessosDoHandler op c request) :
    x = contextOf op c ∧ ((membro = .res x ∧ ∃ res value, request = .running res (.store value)) ∨
      membro = .finalizada x ∧ ∃ res, request = .running res .mark) := by
  simp only [acessosDoHandler] at access
  split at access
  all_goals rcases ofContexto with rfl | rfl <;> simp_all

/-- A thread that uses a context belongs to its owner. -/
theorem owner_of_contexto (inv : Inv program s) {membro : Membro}
    (ofContexto : membro = .res x ∨ membro = .finalizada x)
    (access : ⟨membro, escreve⟩ ∈ acessos program s agent) :
    ∃ c, (agent = .call c ∨ agent = .handler c) ∧ owns (program.op c) (s.pc c) = true ∧
      contextOf (program.op c) c = x := by
  cases agent with
  | call c =>
      obtain ⟨pc, own, _⟩ := acessosDaChamada_contexto ofContexto access
      refine ⟨c, Or.inl rfl, ?_, own.symm⟩
      rw [pc]
      cases program.op c <;> rfl
  | handler c =>
      obtain ⟨own, running⟩ := acessosDoHandler_contexto ofContexto access
      refine ⟨c, Or.inr rfl, ?_, own.symm⟩
      apply inv.owns_of_outstanding
      rcases running with ⟨_, res, value, running⟩ | ⟨_, res, running⟩ <;> rw [running] <;> rfl
  | message m =>
      simp only [acessos, acessosDaMensagem] at access
      split at access <;> rcases ofContexto with rfl | rfl <;> simp at access

/-! ## Members, one at a time -/

theorem callbackMap_apart (sections : Sections s)
    (firstAccess : ⟨.callbackMap, escreve⟩ ∈ acessos program s first)
    (secondAccess : ⟨.callbackMap, escreve'⟩ ∈ acessos program s second)
    (writes : (escreve || escreve') = true) : first = second := by
  rcases section_of_callbackMap firstAccess with ⟨_, firstWrites⟩ | ⟨notFirst, firstReads⟩ <;>
    rcases section_of_callbackMap secondAccess with ⟨_, secondWrites⟩ | ⟨notSecond, secondReads⟩
  · exact sections.guarded.unique firstWrites secondWrites
  · rw [sections.guarded.apart sections.exclusive firstWrites] at secondReads
    cases secondReads
  · rw [sections.guarded.apart sections.exclusive secondWrites] at firstReads
    cases firstReads
  · rw [notFirst, notSecond] at writes
    cases writes

theorem primeiraTentativa_apart (inv : Inv program s)
    (firstAccess : ⟨.primeiraTentativa, escreve⟩ ∈ acessos program s first)
    (secondAccess : ⟨.primeiraTentativa, escreve'⟩ ∈ acessos program s second) :
    first = second := by
  obtain ⟨c, rfl, held⟩ := holder_of_primeiraTentativa inv firstAccess
  obtain ⟨d, rfl, alsoHeld⟩ := holder_of_primeiraTentativa inv secondAccess
  rw [Option.some.inj (held.symm.trans alsoHeld)]

/-- The call reads the result after the handler has set the flag, and the handler
sets the flag under the mutex and after it has stored the result. -/
theorem not_both (inv : Inv program s) {c : CallId} {membro : Membro}
    (ofContexto : membro = .res x ∨ membro = .finalizada x)
    (ofCall : ⟨membro, escreve⟩ ∈ acessos program s (.call c))
    (ofHandler : ⟨membro, escreve'⟩ ∈ acessos program s (.handler c)) : False := by
  obtain ⟨pc, rfl, reads⟩ := acessosDaChamada_contexto ofContexto ofCall
  obtain ⟨_, running⟩ := acessosDoHandler_contexto ofContexto ofHandler
  have agrees := inv.agrees c (by rw [pc]; cases program.op c <;> rfl)
  rw [pc] at agrees
  rcases running with ⟨ofRes, res, value, running⟩ | ⟨_, res, running⟩
  · have flag := agrees.flag
    rw [running, (reads ofRes).2] at flag
    cases flag
  · have exclusive := agrees.exclusive rfl
    rw [running] at exclusive
    cases exclusive

theorem contexto_apart (inv : Inv program s) {membro : Membro}
    (ofContexto : membro = .res x ∨ membro = .finalizada x)
    (firstAccess : ⟨membro, escreve⟩ ∈ acessos program s first)
    (secondAccess : ⟨membro, escreve'⟩ ∈ acessos program s second) : first = second := by
  obtain ⟨c, ofFirst, owner, own⟩ := owner_of_contexto inv ofContexto firstAccess
  obtain ⟨d, ofSecond, otherOwner, otherOwn⟩ := owner_of_contexto inv ofContexto secondAccess
  have same := inv.owner_unique owner otherOwner (own.trans otherOwn.symm)
  subst d
  rcases ofFirst with rfl | rfl <;> rcases ofSecond with rfl | rfl
  · rfl
  · exact (not_both inv ofContexto firstAccess secondAccess).elim
  · exact (not_both inv ofContexto secondAccess firstAccess).elim
  · rfl

end Accesses

/-- No reachable state lets two threads use one member next with one of them
writing it, in any interleaving of the calls, the handlers and the messages. -/
theorem data_race_free (program : Program) (callbackMap : CallbackMap) (conectado : Bool)
    {history : List (Event State Label)} {s : State}
    (run : Run (step program) (initial callbackMap conectado) history s)
    (first second : Agent) : ¬ Corrida program s first second := by
  rintro ⟨different, membro, escreve, escreve', firstAccess, secondAccess, writes⟩
  have inv := Inv.of_run run
  apply different
  cases membro with
  | callbackMap => exact callbackMap_apart (sections_of_run run) firstAccess secondAccess writes
  | primeiraTentativa => exact primeiraTentativa_apart inv firstAccess secondAccess
  | res x => exact contexto_apart inv (Or.inl rfl) firstAccess secondAccess
  | finalizada x => exact contexto_apart inv (Or.inr rfl) firstAccess secondAccess

/-- One connect call. -/
def programaDeCorrida : Program where
  op _ := .conectar
  topico _ := []

/-- The completion is delivered while the call is about to test the flag for the
first time, so the call and the handler use one context at once. -/
def notificacaoConcorrente : List Label :=
  [.start 0, .call 0 0, .call 0 0, .call 0 0, .call 0 0, .call 0 0,
    .complete 0 (.onSuccess ⟨0, [], 0⟩), .deliver 0, .handler 0]

theorem data_race_free_concurrent :
    ∃ history s, Run (step programaDeCorrida) (initial (fun _ => none) false) history s ∧
      acessos programaDeCorrida s (.call 0) = [⟨.finalizada .conexao, false⟩] ∧
      acessos programaDeCorrida s (.handler 0) = [⟨.res .conexao, true⟩] ∧
      ¬ Corrida programaDeCorrida s (.call 0) (.handler 0) := by
  obtain ⟨s, run, view⟩ := exists_run_of_execute (step programaDeCorrida)
    (initial (fun _ => none) false) notificacaoConcorrente
    (fun s => (acessos programaDeCorrida s (.call 0), acessos programaDeCorrida s (.handler 0)))
    ([⟨.finalizada .conexao, false⟩], [⟨.res .conexao, true⟩]) (by decide)
  rw [Prod.mk.injEq] at view
  exact ⟨_, s, run, view.1, view.2, data_race_free _ _ _ run _ _⟩

end PahoClient
