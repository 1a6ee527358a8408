import PahoClient.Client.Invariant

/-!
# Every statement preserves the invariant

The statements fall into those that only move a call or a handler to its next
position, those that change the context they own, and the two that take and
release `_conexao_mtx`.
-/

namespace PahoClient

open PahoClient.Transition

/-! ## Moves inside an owned context -/

/-- Positions that hold the same mutex and read the same flag are
interchangeable, as long as a blocked call stays blocked. -/
theorem Agrees.move {op : Operation} {c : CallId} {pc pc' : Pc} {request request' : Request}
    {x : Contexto} (agrees : Agrees op c pc request x)
    (holds : pc'.holdsContexto = pc.holdsContexto)
    (held : request'.holdsContexto = request.holdsContexto)
    (flag : (request'.marked && !pc'.consumed) = (request.marked && !pc.consumed))
    (stored : request'.stored = request.stored)
    (blocked : pc = .waiting → request.notified = false →
      pc' = .waiting ∧ request'.notified = false) :
    Agrees op c pc' request' x where
  exclusive := by
    rw [holds, held]
    exact agrees.exclusive
  mutex := by
    rw [holds, held]
    exact agrees.mutex
  flag := by
    rw [flag]
    exact agrees.flag
  value := by
    rw [stored]
    exact agrees.value
  blocked := by
    rcases agrees.blocked with empty | ⟨queued, waiting, notNotified⟩
    · exact Or.inl empty
    · exact Or.inr ⟨queued, blocked waiting notNotified⟩

/-! ## Steps of the condition variable -/

/-- A handler that has set the flag and released the mutex has returned. -/
theorem Request.done_of_marked {request : Request} (marked : request.marked = true)
    (notHeld : request.holdsContexto = false) : ∃ res, request = .done res := by
  cases request with
  | done res => exact ⟨res, rfl⟩
  | running res handlerPc =>
      cases handlerPc <;> simp [Request.marked, HandlerPc.marked, Request.holdsContexto,
        HandlerPc.holdsContexto] at marked notHeld
  | unissued | rejected | pending | ready => simp [Request.marked] at marked

/-- The flag is set before the notification. -/
theorem Request.not_notified {request : Request} (notMarked : request.marked = false) :
    request.notified = false := by
  cases request with
  | running res handlerPc =>
      cases handlerPc with
      | unlock => simp [Request.marked, HandlerPc.marked] at notMarked
      | _ => rfl
  | done res => simp [Request.marked] at notMarked
  | _ => rfl

section CallSteps

variable {op : Operation} {c : CallId} {pc : Pc} {request : Request} {x : Contexto} {res : Bool}

theorem Agrees.lock (agrees : Agrees op c .waitLock request x)
    (unlocked : x.finalizadaMtx = none) :
    Agrees op c .waitTest request { x with finalizadaMtx := some (.call c) } where
  exclusive _ := (agrees.not_held unlocked).2
  mutex := by simp [Pc.holdsContexto]
  flag := by simpa [Pc.consumed] using agrees.flag
  value := agrees.value
  blocked := Or.inl (agrees.not_blocked (by simp))

theorem Agrees.consume (agrees : Agrees op c .waitTest request x) :
    Agrees op c (.waitUnlock res) request { x with finalizada := false } where
  exclusive _ := agrees.exclusive rfl
  mutex := by simpa [Pc.holdsContexto] using agrees.mutex
  flag := by simp [Pc.consumed]
  value := agrees.value
  blocked := Or.inl (agrees.not_blocked (by simp))

/-- A call that blocks has not been notified, so its notification is still to
come. -/
theorem Agrees.wait (agrees : Agrees op c .waitTest request x)
    (notFinalizada : x.finalizada = false) :
    Agrees op c .waiting request
      { x with finalizadaMtx := none, finalizadaCv := x.finalizadaCv ++ [c] } where
  exclusive := by simp [Pc.holdsContexto]
  mutex := by simp [Pc.holdsContexto, agrees.exclusive rfl]
  flag := by simpa [Pc.consumed] using agrees.flag
  value := agrees.value
  blocked := by
    have notMarked : request.marked = false := by
      have flag := agrees.flag
      rw [notFinalizada] at flag
      simpa [Pc.consumed] using flag.symm
    have empty := agrees.not_blocked (by simp)
    exact Or.inr ⟨by simp [empty], rfl, Request.not_notified notMarked⟩

theorem Agrees.wake (agrees : Agrees op c .waiting request x) (woken : c ∉ x.finalizadaCv) :
    Agrees op c .waitLock request x where
  exclusive := by simp [Pc.holdsContexto]
  mutex := by simpa [Pc.holdsContexto] using agrees.mutex
  flag := by simpa [Pc.consumed] using agrees.flag
  value := agrees.value
  blocked := by
    rcases agrees.blocked with empty | ⟨queued, _⟩
    · exact Or.inl empty
    · exact absurd (by simp [queued]) woken

theorem Agrees.unlock (agrees : Agrees op c (.waitUnlock res) request x)
    (consumed : pc.consumed = true) (notHolding : pc.holdsContexto = false) :
    Agrees op c pc request { x with finalizadaMtx := none } where
  exclusive := by simp [notHolding]
  mutex := by simp [notHolding, agrees.exclusive rfl]
  flag := by
    rw [consumed]
    simpa [Pc.consumed] using agrees.flag
  value := agrees.value
  blocked := Or.inl (agrees.not_blocked (by simp))

/-- A spurious wake-up empties the queue of the condition variable. -/
theorem Agrees.acordar (agrees : Agrees op c pc request x) :
    Agrees op c pc request { x with finalizadaCv := x.finalizadaCv.erase c } where
  exclusive := agrees.exclusive
  mutex := agrees.mutex
  flag := agrees.flag
  value := agrees.value
  blocked := by
    rcases agrees.blocked with empty | ⟨only, _, _⟩
    · simp [empty]
    · simp [only]

end CallSteps

section HandlerSteps

variable {op : Operation} {c : CallId} {pc : Pc} {res : Completion} {x : Contexto}

theorem Agrees.handler_lock (agrees : Agrees op c pc (.running res .lock) x)
    (unlocked : x.finalizadaMtx = none) :
    Agrees op c pc (.running res .mark) { x with finalizadaMtx := some (.handler c) } where
  exclusive := by simp [(agrees.not_held unlocked).1]
  mutex := by
    simp [(agrees.not_held unlocked).1, Request.holdsContexto, HandlerPc.holdsContexto]
  flag := by simpa [Request.marked, HandlerPc.marked] using agrees.flag
  value := by simpa [Request.stored, HandlerPc.stored] using agrees.value
  blocked := by simpa [Request.notified] using agrees.blocked

theorem Agrees.handler_mark (agrees : Agrees op c pc (.running res .mark) x)
    (notConsumed : pc.consumed = false) :
    Agrees op c pc (.running res .notify) { x with finalizada := true } where
  exclusive := by simp [agrees.not_holding rfl]
  mutex := by simpa [Request.holdsContexto, HandlerPc.holdsContexto] using agrees.mutex
  flag := by simp [Request.marked, HandlerPc.marked, notConsumed]
  value := by simpa [Request.stored, HandlerPc.stored] using agrees.value
  blocked := by simpa [Request.notified] using agrees.blocked

theorem Agrees.handler_notify (agrees : Agrees op c pc (.running res .notify) x) :
    Agrees op c pc (.running res .unlock)
      { x with finalizadaCv := x.finalizadaCv.tail } where
  exclusive := by simpa [Request.holdsContexto, HandlerPc.holdsContexto] using agrees.exclusive
  mutex := by simpa [Request.holdsContexto, HandlerPc.holdsContexto] using agrees.mutex
  flag := by simpa [Request.marked, HandlerPc.marked] using agrees.flag
  value := by simpa [Request.stored, HandlerPc.stored] using agrees.value
  blocked := by
    rcases agrees.blocked with empty | ⟨only, _, _⟩
    · simp [empty]
    · simp [only]

theorem Agrees.handler_unlock (agrees : Agrees op c pc (.running res .unlock) x) :
    Agrees op c pc (.done res) { x with finalizadaMtx := none } where
  exclusive := by simp [agrees.not_holding rfl]
  mutex := by simp [agrees.not_holding rfl, Request.holdsContexto]
  flag := by simpa [Request.marked, HandlerPc.marked] using agrees.flag
  value := by simpa [Request.stored, HandlerPc.stored] using agrees.value
  blocked := by
    rcases agrees.blocked with empty | ⟨_, _, notNotified⟩
    · exact Or.inl empty
    · simp [Request.notified] at notNotified

end HandlerSteps

section Statements

variable {program : Program} {s t : State}

/-- A step of an owner, or of the library for it, that leaves the context
alone. -/
theorem Inv.moved (inv : Inv program s) (c : CallId) (pc : Pc) (request : Request)
    (pcEq : t.pc = Function.update s.pc c pc)
    (requestEq : t.request = Function.update s.request c request)
    (contextoEq : t.contexto = s.contexto) (mutexEq : t.conexaoMtx = s.conexaoMtx)
    (ownsBefore : owns (program.op c) (s.pc c) = true)
    (ownsAfter : owns (program.op c) pc = true)
    (progressAfter : PahoClient.progress (program.op c) pc request)
    (reportsAfter : PahoClient.reports (program.op c) request)
    (holds : pc.holdsContexto = (s.pc c).holdsContexto)
    (held : request.holdsContexto = (s.request c).holdsContexto)
    (flag : (request.marked && !pc.consumed) = ((s.request c).marked && !(s.pc c).consumed))
    (stored : request.stored = (s.request c).stored)
    (blocked : s.pc c = .waiting → (s.request c).notified = false →
      pc = .waiting ∧ request.notified = false) : Inv program t := by
  refine inv.owned c (x := s.contexto (contextOf (program.op c) c)) pcEq requestEq ?_ mutexEq
    ownsBefore ownsAfter progressAfter reportsAfter ?_
  · rw [contextoEq, Function.update_eq_self]
  · exact (inv.agrees c ownsBefore).move holds held flag stored blocked

/-- A call moves on while its command stays as it is. -/
theorem Inv.moved_call (inv : Inv program s) (c : CallId) {pc : Pc}
    (pcEq : t.pc = Function.update s.pc c pc) (requestEq : t.request = s.request)
    (contextoEq : t.contexto = s.contexto) (mutexEq : t.conexaoMtx = s.conexaoMtx)
    (ownsBefore : owns (program.op c) (s.pc c) = true)
    (ownsAfter : owns (program.op c) pc = true)
    (progressAfter : PahoClient.progress (program.op c) pc (s.request c))
    (holds : pc.holdsContexto = (s.pc c).holdsContexto)
    (flag : ((s.request c).marked && !pc.consumed) =
      ((s.request c).marked && !(s.pc c).consumed))
    (notWaiting : s.pc c ≠ .waiting) : Inv program t := by
  refine inv.moved c pc (s.request c) pcEq ?_ contextoEq mutexEq ownsBefore ownsAfter
    progressAfter (inv.reports c) holds rfl flag rfl ?_
  · rw [requestEq, Function.update_eq_self]
  · intro waiting
    exact absurd waiting notWaiting

/-- The library or a handler moves on while the call stays where it is. -/
theorem Inv.moved_request (inv : Inv program s) (c : CallId) {request : Request}
    (pcEq : t.pc = s.pc) (requestEq : t.request = Function.update s.request c request)
    (contextoEq : t.contexto = s.contexto) (mutexEq : t.conexaoMtx = s.conexaoMtx)
    (outstanding : (s.request c).outstanding = true)
    (progressAfter : PahoClient.progress (program.op c) (s.pc c) request)
    (reportsAfter : PahoClient.reports (program.op c) request)
    (held : request.holdsContexto = (s.request c).holdsContexto)
    (marked : request.marked = (s.request c).marked)
    (stored : request.stored = (s.request c).stored)
    (notified : request.notified = (s.request c).notified) : Inv program t := by
  have ownsBefore := inv.owns_of_outstanding outstanding
  refine inv.moved c (s.pc c) request ?_ requestEq contextoEq mutexEq ownsBefore ownsBefore
    progressAfter reportsAfter rfl held (by rw [marked]) stored ?_
  · rw [pcEq, Function.update_eq_self]
  · intro waiting notNotified
    exact ⟨waiting, notified.trans notNotified⟩

/-- A handler step that changes the context it reports through. -/
theorem Inv.reported (inv : Inv program s) (c : CallId) {request : Request} {x : Contexto}
    (pcEq : t.pc = s.pc) (requestEq : t.request = Function.update s.request c request)
    (contextoEq : t.contexto = Function.update s.contexto (contextOf (program.op c) c) x)
    (mutexEq : t.conexaoMtx = s.conexaoMtx)
    (outstanding : (s.request c).outstanding = true)
    (progressAfter : PahoClient.progress (program.op c) (s.pc c) request)
    (reportsAfter : PahoClient.reports (program.op c) request)
    (agreesAfter : Agrees (program.op c) c (s.pc c) (s.request c)
        (s.contexto (contextOf (program.op c) c)) →
      Agrees (program.op c) c (s.pc c) request x) : Inv program t := by
  have ownsBefore := inv.owns_of_outstanding outstanding
  have pcSame : t.pc = Function.update s.pc c (s.pc c) := by
    rw [pcEq, Function.update_eq_self]
  exact inv.owned c pcSame requestEq contextoEq mutexEq ownsBefore ownsBefore
    progressAfter reportsAfter (agreesAfter (inv.agrees c ownsBefore))

/-- An outstanding command may be at any stage of its library side. -/
theorem progress_of_outstanding {op : Operation} {pc : Pc} {request request' : Request}
    (before : PahoClient.progress op pc request) (outstanding : request.outstanding = true)
    (accepted : request'.accepted = true) : PahoClient.progress op pc request' := by
  cases pc with
  | idle | testVazio | lockConexao | testConectado | setCallbacks | command =>
      subst request
      simp [Request.outstanding] at outstanding
  | acquire laco | loop laco | release laco =>
      cases laco with
      | inserir =>
          subst request
          simp [Request.outstanding] at outstanding
      | desfazer =>
          obtain ⟨ret, rfl⟩ := before
          simp [Request.outstanding] at outstanding
      | apagar => exact ⟨before.1, accepted⟩
  | waitLock | waitTest | waiting => exact accepted
  | waitUnlock =>
      obtain ⟨res, rfl, _⟩ := before
      simp [Request.outstanding] at outstanding
  | unlockConexao | returned =>
      rcases before with rfl | ⟨ret, rfl, _⟩ | ⟨res, rfl, _⟩ <;>
        simp [Request.outstanding] at outstanding

/-! ## The waiting frame -/

/-- `esperar` preserves the invariant when it continues at a position where the
call carries the result it was given. -/
theorem Inv.esperar (inv : Inv program s) {c : CallId} (after : Bool → Pc)
    (afterEq : ∀ value, after value = .unlockConexao value ∨ after value = .returned value)
    (ownsBefore : owns (program.op c) (s.pc c) = true)
    (ownsAfter : ∀ pc ∈ [Pc.waitLock, Pc.waitTest, Pc.waiting], owns (program.op c) pc = true)
    (ownsUnlock : ∀ value, owns (program.op c) (.waitUnlock value) = true)
    (ownsReturn : ∀ value, owns (program.op c) (after value) = true)
    (executed : Contexto.esperar (contextOf (program.op c) c) after c s = some t) :
    Inv program t := by
  have agrees := inv.agrees c ownsBefore
  have progress := inv.progress c
  have requestSame : s.request = Function.update s.request c (s.request c) :=
    (Function.update_eq_self _ _).symm
  unfold Contexto.esperar at executed
  cases pc : s.pc c with
  | waitLock =>
      simp only [pc] at executed
      rw [pc] at agrees progress
      split at executed
      · rename_i unlocked
        cases executed
        exact inv.owned c rfl requestSame rfl rfl ownsBefore (ownsAfter _ (by simp)) progress
          (inv.reports c) (agrees.lock unlocked)
      · cases executed
  | waitTest =>
      simp only [pc] at executed
      rw [pc] at agrees progress
      split at executed
      · rename_i finalizada
        cases executed
        have marked : (s.request c).marked = true := by
          have flag := agrees.flag
          rw [finalizada] at flag
          simpa [Pc.consumed] using flag.symm
        obtain ⟨res, done⟩ := Request.done_of_marked marked (agrees.exclusive rfl)
        have value := agrees.value res (by rw [done]; rfl)
        exact inv.owned c rfl requestSame rfl rfl ownsBefore (ownsUnlock _) ⟨res, done, value⟩
          (inv.reports c) agrees.consume
      · rename_i notFinalizada
        cases executed
        have lowered := eq_false_of_ne_true notFinalizada
        exact inv.owned c rfl requestSame rfl rfl ownsBefore (ownsAfter _ (by simp)) progress
          (inv.reports c) (agrees.wait lowered)
  | waiting =>
      simp only [pc] at executed
      rw [pc] at agrees progress
      split at executed
      · cases executed
      · rename_i woken
        cases executed
        exact inv.owned c (x := s.contexto (contextOf (program.op c) c)) rfl requestSame
          (Function.update_eq_self _ _).symm rfl ownsBefore (ownsAfter _ (by simp))
          progress (inv.reports c) (agrees.wake woken)
  | waitUnlock value =>
      simp only [pc] at executed
      cases executed
      rw [pc] at agrees progress
      obtain ⟨res, done, valueEq⟩ := progress
      have consumed : (after value).consumed = true := by
        rcases afterEq value with equal | equal <;> rw [equal] <;> rfl
      have notHolding : (after value).holdsContexto = false := by
        rcases afterEq value with equal | equal <;> rw [equal] <;> rfl
      have progressAfter : PahoClient.progress (program.op c) (after value) (s.request c) := by
        rcases afterEq value with equal | equal <;> rw [equal] <;>
          exact Or.inr (Or.inr ⟨res, done, valueEq⟩)
      exact inv.owned c rfl requestSame rfl rfl ownsBefore (ownsReturn _) progressAfter
        (inv.reports c) (agrees.unlock consumed notHolding)
  | _ => simp [pc] at executed

theorem Inv.acordar (inv : Inv program s) {c : CallId}
    (executed : Contexto.acordar (contextOf (program.op c) c) c s = some t) :
    Inv program t := by
  unfold Contexto.acordar at executed
  split at executed
  · rename_i queued
    cases executed
    have ownsBefore : owns (program.op c) (s.pc c) = true := by
      by_contra notOwner
      have others : ∀ d, owns (program.op d) (s.pc d) = true →
          contextOf (program.op d) d = contextOf (program.op c) c → False := by
        intro d ownsD equal
        rcases (inv.agrees d ownsD).blocked with empty | ⟨only, _, _⟩
        · rw [equal] at empty
          simp [empty] at queued
        · rw [equal] at only
          have same : c = d := by simpa [only] using queued
          subst d
          exact notOwner ownsD
      have quiet := inv.quiet (contextOf (program.op c) c) fun d ownsD equal =>
        others d ownsD equal
      simp [quiet.blocked] at queued
    exact inv.owned c (Function.update_eq_self _ _).symm (Function.update_eq_self _ _).symm rfl
      rfl ownsBefore ownsBefore (inv.progress c) (inv.reports c)
      (inv.agrees c ownsBefore).acordar
  · cases executed

/-! ## Handlers -/

/-- A running handler keeps the facts about its completion when it moves past
its result. -/
theorem Inv.notificarUm (inv : Inv program s) {c : CallId} {res : Completion}
    {handlerPc : HandlerPc} (request : s.request c = .running res handlerPc)
    (executed : Contexto.notificarUm (contextOf (program.op c) c) c res handlerPc s = some t) :
    Inv program t := by
  have outstanding : (s.request c).outstanding = true := by
    rw [request]
    rfl
  have moves : ∀ {request' : Request}, request'.accepted = true →
      PahoClient.progress (program.op c) (s.pc c) request' :=
    fun accepted => progress_of_outstanding (inv.progress c) outstanding accepted
  unfold Contexto.notificarUm at executed
  cases handlerPc with
  | lock =>
      simp only at executed
      split at executed
      · rename_i unlocked
        cases executed
        refine inv.reported c rfl rfl rfl rfl outstanding (moves rfl) trivial ?_
        intro agrees
        rw [request] at agrees
        exact agrees.handler_lock unlocked
      · cases executed
  | mark =>
      cases executed
      refine inv.reported c rfl rfl rfl rfl outstanding (moves rfl) trivial ?_
      intro agrees
      rw [request] at agrees
      have notConsumed : (s.pc c).consumed = false := by
        have progress := inv.progress c
        rw [request] at progress
        cases pc : s.pc c <;> simp_all [PahoClient.progress, Pc.consumed]
      exact agrees.handler_mark notConsumed
  | notify =>
      cases executed
      refine inv.reported c rfl rfl rfl rfl outstanding (moves rfl) trivial ?_
      intro agrees
      rw [request] at agrees
      exact agrees.handler_notify
  | unlock =>
      cases executed
      refine inv.reported c rfl rfl rfl rfl outstanding (moves rfl) trivial ?_
      intro agrees
      rw [request] at agrees
      exact agrees.handler_unlock
  | start | acquire | loop | release | store => cases executed

/-- A handler either rolls the registration back, which happens for negative
outcomes only, or goes on to store the outcome. -/
theorem handlerOf_cases (op : Operation) (res : Completion) :
    (handlerOf op res = .acquire ∧ op.outcome res = false) ∨
      handlerOf op res = .store (op.outcome res) := by
  cases op with
  | subscribe args =>
      cases res with
      | onFailure data => exact Or.inl ⟨rfl, rfl⟩
      | onSuccess data =>
          cases recusado : Subscribe.recusado args data <;>
            simp [handlerOf, Subscribe.sucesso, Operation.outcome, recusado]
  | conectar | unsubscribe | desconectar => cases res <;> exact Or.inr rfl

/-- The handler registered for a completion reports its outcome. -/
theorem reports_handlerOf (op : Operation) (res : Completion) :
    PahoClient.reports op (.running res (handlerOf op res)) := by
  rcases handlerOf_cases op res with ⟨first, negative⟩ | first
  · rw [first]
    exact negative
  · rw [first]
    rfl

theorem handlerOf_early (op : Operation) (res : Completion) :
    (handlerOf op res).holdsContexto = false ∧ (handlerOf op res).marked = false ∧
      (handlerOf op res).stored = false ∧
      Request.notified (.running res (handlerOf op res)) = false := by
  rcases handlerOf_cases op res with ⟨first, _⟩ | first <;> rw [first] <;>
    exact ⟨rfl, rfl, rfl, rfl⟩

theorem Inv.handle (inv : Inv program s) {c : CallId} {res : Completion}
    {handlerPc : HandlerPc} (request : s.request c = .running res handlerPc)
    (executed : PahoClient.handle (program.op c) c res handlerPc s = some t) :
    Inv program t := by
  have outstanding : (s.request c).outstanding = true := by
    rw [request]
    rfl
  have moves : ∀ {request' : Request}, request'.accepted = true →
      PahoClient.progress (program.op c) (s.pc c) request' :=
    fun accepted => progress_of_outstanding (inv.progress c) outstanding accepted
  have reportsBefore := inv.reports c
  rw [request] at reportsBefore
  unfold PahoClient.handle at executed
  cases handlerPc with
  | start =>
      cases executed
      obtain ⟨notHeld, notMarked, notStored, notNotified⟩ := handlerOf_early (program.op c) res
      refine inv.moved_request c rfl rfl rfl rfl outstanding (moves rfl)
        (reports_handlerOf _ _) ?_ ?_ ?_ ?_ <;> rw [request]
      · exact notHeld
      · exact notMarked
      · change (if (handlerOf (program.op c) res).stored then some res else none) = none
        rw [notStored]
        rfl
      · exact notNotified
  | acquire =>
      obtain ⟨lock, _, rfl⟩ := Option.map_eq_some_iff.mp executed
      refine inv.moved_request c rfl rfl rfl rfl outstanding (moves rfl) reportsBefore
        ?_ ?_ ?_ ?_ <;> rw [request] <;> rfl
  | loop =>
      cases executed
      refine inv.moved_request c rfl rfl rfl rfl outstanding (moves rfl) reportsBefore
        ?_ ?_ ?_ ?_ <;> rw [request] <;> rfl
  | release =>
      cases executed
      refine inv.moved_request c rfl rfl rfl rfl outstanding (moves rfl) reportsBefore.symm
        ?_ ?_ ?_ ?_ <;> rw [request] <;> rfl
  | store value =>
      cases executed
      refine inv.reported c rfl rfl rfl rfl outstanding (moves rfl) trivial ?_
      intro agrees
      rw [request] at agrees
      exact {
        exclusive := by simp [Request.holdsContexto, HandlerPc.holdsContexto]
        mutex := by
          simpa [Request.holdsContexto, HandlerPc.holdsContexto] using agrees.mutex
        flag := by simpa [Request.marked, HandlerPc.marked] using agrees.flag
        value := by
          intro stored storedEq
          cases storedEq
          exact reportsBefore
        blocked := by simpa [Request.notified] using agrees.blocked }
  | lock | mark | notify | unlock => exact inv.notificarUm request executed

/-! ## Calls -/

/-- Issuing a command keeps the context quiet until its handler runs. -/
theorem Inv.issue (inv : Inv program s) {c : CallId} {ret : Int} {accepted rejected : Pc}
    (pc : s.pc c = .command)
    (executed : PahoClient.issue c ret accepted rejected s = some t)
    (ownsBefore : owns (program.op c) .command = true)
    (ownsAccepted : owns (program.op c) accepted = true)
    (ownsRejected : owns (program.op c) rejected = true)
    (progressAccepted : PahoClient.progress (program.op c) accepted .pending)
    (progressRejected : PahoClient.progress (program.op c) rejected (.rejected ret))
    (idleAccepted : accepted.holdsContexto = false)
    (idleRejected : rejected.holdsContexto = false) : Inv program t := by
  have unissued : s.request c = .unissued := by
    have progress := inv.progress c
    rw [pc] at progress
    exact progress
  have notWaiting : s.pc c = .waiting → False := by
    rw [pc]
    intro impossible
    cases impossible
  unfold PahoClient.issue at executed
  split at executed <;> cases executed
  · refine inv.moved c accepted .pending rfl rfl rfl rfl
      (by rw [pc]; exact ownsBefore) ownsAccepted progressAccepted trivial ?_ ?_ ?_ ?_ ?_
    · rw [pc, idleAccepted]
      rfl
    · rw [unissued]
      rfl
    · rw [unissued]
      rfl
    · rw [unissued]
      rfl
    · intro waiting
      exact (notWaiting waiting).elim
  · refine inv.moved c rejected (.rejected ret) rfl rfl rfl rfl
      (by rw [pc]; exact ownsBefore) ownsRejected progressRejected trivial ?_ ?_ ?_ ?_ ?_
    · rw [pc, idleRejected]
      rfl
    · rw [unissued]
      rfl
    · rw [unissued]
      rfl
    · rw [unissued]
      rfl
    · intro waiting
      exact (notWaiting waiting).elim

/-- A call that has not issued its command moves freely between positions that
own the context. -/
theorem Inv.moved_unissued (inv : Inv program s) (c : CallId) {pc : Pc}
    (pcEq : t.pc = Function.update s.pc c pc) (requestEq : t.request = s.request)
    (contextoEq : t.contexto = s.contexto) (mutexEq : t.conexaoMtx = s.conexaoMtx)
    (unissued : s.request c = .unissued)
    (ownsBefore : owns (program.op c) (s.pc c) = true)
    (ownsAfter : owns (program.op c) pc = true)
    (progressAfter : PahoClient.progress (program.op c) pc .unissued)
    (holds : pc.holdsContexto = (s.pc c).holdsContexto)
    (notWaiting : s.pc c ≠ .waiting) : Inv program t := by
  refine inv.moved_call c pcEq requestEq contextoEq mutexEq ownsBefore ownsAfter ?_ holds ?_
    notWaiting
  · rw [unissued]
    exact progressAfter
  · rw [unissued]
    rfl

theorem Inv.connect_despachar (inv : Inv program s) {c : CallId} {ret : Int}
    (op : program.op c = .conectar) (executed : Connect.despachar c ret s = some t) :
    Inv program t := by
  have uses : (program.op c).usesConexao = true := by
    rw [op]
    rfl
  have progress := inv.progress c
  unfold Connect.despachar at executed
  cases pc : s.pc c with
  | lockConexao =>
      simp only [pc, PahoClient.lockConexao] at executed
      rw [pc] at progress
      split at executed
      · rename_i unlocked
        cases executed
        exact inv.locked c uses unlocked rfl rfl rfl rfl (by rw [op]; rfl) progress rfl rfl
      · cases executed
  | testConectado =>
      simp only [pc, goto] at executed
      rw [pc] at progress
      have ownsBefore : owns (program.op c) (s.pc c) = true := by
        rw [op, pc]
        rfl
      split at executed
      · cases executed
        refine inv.moved_unissued c rfl rfl rfl rfl progress ownsBefore ?_ (Or.inl rfl) ?_ ?_ <;>
          simp [op, pc, owns, Pc.holdsContexto]
      · split at executed <;> cases executed <;>
          refine inv.moved_unissued c rfl rfl rfl rfl progress ownsBefore ?_ rfl ?_ ?_ <;>
          simp [op, pc, owns, Pc.holdsContexto]
  | setCallbacks =>
      simp only [pc, goto] at executed
      rw [pc] at progress
      have ownsBefore : owns (program.op c) (s.pc c) = true := by
        rw [op, pc]
        rfl
      split at executed
      · cases executed
        refine inv.moved_unissued c rfl rfl rfl rfl progress ownsBefore ?_ rfl ?_ ?_ <;>
          simp [op, pc, owns, Pc.holdsContexto]
      · cases executed
        refine inv.moved_unissued c rfl rfl rfl rfl progress ownsBefore ?_ (Or.inl rfl) ?_ ?_ <;>
          simp [op, pc, owns, Pc.holdsContexto]
  | command =>
      simp only [pc] at executed
      exact inv.issue pc executed (by rw [op]; rfl) (by rw [op]; rfl) (by rw [op]; rfl) rfl
        (Or.inr (Or.inl ⟨ret, rfl, rfl⟩)) rfl rfl
  | unlockConexao value =>
      simp only [pc, PahoClient.unlockConexao] at executed
      cases executed
      exact inv.unlocked c uses pc rfl rfl rfl rfl
  | waitLock | waitTest | waiting | waitUnlock =>
      simp only [pc] at executed
      refine inv.esperar .unlockConexao (fun _ => Or.inl rfl) (by rw [op, pc]; rfl)
        ?_ ?_ ?_ (by rw [op]; exact executed)
      · intro position member
        simp only [List.mem_cons, List.not_mem_nil, or_false] at member
        rcases member with rfl | rfl | rfl <;> rw [op] <;> rfl
      · intro value
        rw [op]
        rfl
      · intro value
        rw [op]
        rfl
  | idle | testVazio | acquire | loop | release | returned =>
      simp [pc, Contexto.esperar] at executed

theorem Inv.disconnect_despachar (inv : Inv program s) {c : CallId} {ret : Int}
    (op : program.op c = .desconectar) (executed : Disconnect.despachar c ret s = some t) :
    Inv program t := by
  have uses : (program.op c).usesConexao = true := by
    rw [op]
    rfl
  have progress := inv.progress c
  unfold Disconnect.despachar at executed
  cases pc : s.pc c with
  | testConectado =>
      simp only [pc, goto] at executed
      rw [pc] at progress
      cases executed
      refine inv.outside c rfl rfl rfl rfl (by rw [op, pc]; rfl) ?_ ?_
      · rw [op]
        split <;> rfl
      · split
        · exact progress
        · exact Or.inl progress
  | lockConexao =>
      simp only [pc, PahoClient.lockConexao] at executed
      rw [pc] at progress
      split at executed
      · rename_i unlocked
        cases executed
        exact inv.locked c uses unlocked rfl rfl rfl rfl (by rw [op]; rfl) progress rfl rfl
      · cases executed
  | command =>
      simp only [pc] at executed
      exact inv.issue pc executed (by rw [op]; rfl) (by rw [op]; rfl) (by rw [op]; rfl) rfl
        (Or.inr (Or.inl ⟨ret, rfl, rfl⟩)) rfl rfl
  | unlockConexao value =>
      simp only [pc, PahoClient.unlockConexao] at executed
      cases executed
      exact inv.unlocked c uses pc rfl rfl rfl rfl
  | waitLock | waitTest | waiting | waitUnlock =>
      simp only [pc] at executed
      refine inv.esperar .unlockConexao (fun _ => Or.inl rfl) (by rw [op, pc]; rfl)
        ?_ ?_ ?_ (by rw [op]; exact executed)
      · intro position member
        simp only [List.mem_cons, List.not_mem_nil, or_false] at member
        rcases member with rfl | rfl | rfl <;> rw [op] <;> rfl
      · intro value
        rw [op]
        rfl
      · intro value
        rw [op]
        rfl
  | idle | testVazio | setCallbacks | acquire | loop | release | returned =>
      simp [pc, Contexto.esperar] at executed

/-- The calls that own a temporary context own it at every position. -/
theorem Inv.esperar_pedido (inv : Inv program s) {c : CallId}
    (notConexao : (program.op c).usesConexao = false)
    (executed : Contexto.esperar (.pedido c) .returned c s = some t) : Inv program t := by
  have contextoEq : contextOf (program.op c) c = .pedido c := by
    cases op : program.op c <;> simp_all [contextOf, Operation.usesConexao]
  exact inv.esperar .returned (fun _ => Or.inr rfl)
    (owns_of_not_usesConexao notConexao _) (fun _ _ => owns_of_not_usesConexao notConexao _)
    (fun _ => owns_of_not_usesConexao notConexao _)
    (fun _ => owns_of_not_usesConexao notConexao _) (by rw [contextoEq]; exact executed)

theorem Inv.subscribe_despachar (inv : Inv program s) {c : CallId} {ret : Int}
    {args : Subscribe.Args} (op : program.op c = .subscribe args)
    (executed : Subscribe.despachar args c ret s = some t) : Inv program t := by
  have notConexao : (program.op c).usesConexao = false := by
    rw [op]
    rfl
  have ownsAlways := owns_of_not_usesConexao notConexao
  have progress := inv.progress c
  unfold Subscribe.despachar at executed
  cases pc : s.pc c with
  | testVazio =>
      simp only [pc, goto] at executed
      rw [pc] at progress
      cases executed
      refine inv.moved_unissued c rfl rfl rfl rfl progress (ownsAlways _) (ownsAlways _) ?_ ?_ ?_
      · split
        · exact Or.inl rfl
        · rfl
      · rw [pc]
        split <;> rfl
      · simp [pc]
  | command =>
      simp only [pc] at executed
      exact inv.issue pc executed (ownsAlways _) (ownsAlways _) (ownsAlways _) rfl ⟨ret, rfl⟩
        rfl rfl
  | acquire laco =>
      cases laco with
      | inserir =>
          simp only [pc, acquireMap] at executed
          rw [pc] at progress
          obtain ⟨lock, _, rfl⟩ := Option.map_eq_some_iff.mp executed
          refine inv.moved_unissued c rfl rfl rfl rfl progress (ownsAlways _) (ownsAlways _)
            rfl ?_ ?_ <;> simp [pc, Pc.holdsContexto]
      | desfazer =>
          simp only [pc, acquireMap] at executed
          rw [pc] at progress
          obtain ⟨lock, _, rfl⟩ := Option.map_eq_some_iff.mp executed
          refine inv.moved_call c rfl rfl rfl rfl (ownsAlways _) (ownsAlways _) progress ?_ ?_ ?_
            <;> simp [pc, Pc.holdsContexto, Pc.consumed]
      | apagar => simp [pc, Contexto.esperar] at executed
  | loop laco =>
      cases laco with
      | inserir =>
          simp only [pc, updateMap] at executed
          rw [pc] at progress
          cases executed
          refine inv.moved_unissued c rfl rfl rfl rfl progress (ownsAlways _) (ownsAlways _)
            rfl ?_ ?_ <;> simp [pc, Pc.holdsContexto]
      | desfazer =>
          simp only [pc, updateMap] at executed
          rw [pc] at progress
          cases executed
          refine inv.moved_call c rfl rfl rfl rfl (ownsAlways _) (ownsAlways _) progress ?_ ?_ ?_
            <;> simp [pc, Pc.holdsContexto, Pc.consumed]
      | apagar => simp [pc, Contexto.esperar] at executed
  | release laco =>
      cases laco with
      | inserir =>
          simp only [pc, releaseMap] at executed
          rw [pc] at progress
          cases executed
          refine inv.moved_unissued c rfl rfl rfl rfl progress (ownsAlways _) (ownsAlways _)
            rfl ?_ ?_ <;> simp [pc, Pc.holdsContexto]
      | desfazer =>
          simp only [pc, releaseMap] at executed
          rw [pc] at progress
          cases executed
          obtain ⟨code, rejected⟩ := progress
          refine inv.moved_call c rfl rfl rfl rfl (ownsAlways _) (ownsAlways _)
            (Or.inr (Or.inl ⟨code, rejected, rfl⟩)) ?_ ?_ ?_
            <;> simp [pc, rejected, Pc.holdsContexto, Request.marked]
      | apagar => simp [pc, Contexto.esperar] at executed
  | waitLock | waitTest | waiting | waitUnlock =>
      simp only [pc] at executed
      exact inv.esperar_pedido notConexao executed
  | idle | lockConexao | testConectado | setCallbacks | unlockConexao | returned =>
      simp [pc, Contexto.esperar] at executed

theorem Inv.unsubscribe_despachar (inv : Inv program s) {c : CallId} {ret : Int}
    {topicos : List StdString} (op : program.op c = .unsubscribe topicos)
    (executed : Unsubscribe.despachar topicos c ret s = some t) : Inv program t := by
  have notConexao : (program.op c).usesConexao = false := by
    rw [op]
    rfl
  have ownsAlways := owns_of_not_usesConexao notConexao
  have progress := inv.progress c
  unfold Unsubscribe.despachar at executed
  cases pc : s.pc c with
  | command =>
      simp only [pc] at executed
      exact inv.issue pc executed (ownsAlways _) (ownsAlways _) (ownsAlways _) ⟨notConexao, rfl⟩
        (Or.inr (Or.inl ⟨ret, rfl, rfl⟩)) rfl rfl
  | acquire laco =>
      cases laco with
      | inserir | desfazer => simp [pc, Contexto.esperar] at executed
      | apagar =>
          simp only [pc, acquireMap] at executed
          rw [pc] at progress
          obtain ⟨lock, _, rfl⟩ := Option.map_eq_some_iff.mp executed
          refine inv.moved_call c rfl rfl rfl rfl (ownsAlways _) (ownsAlways _) progress ?_ ?_ ?_
            <;> simp [pc, Pc.holdsContexto, Pc.consumed]
  | loop laco =>
      cases laco with
      | inserir | desfazer => simp [pc, Contexto.esperar] at executed
      | apagar =>
          simp only [pc, updateMap] at executed
          rw [pc] at progress
          cases executed
          refine inv.moved_call c rfl rfl rfl rfl (ownsAlways _) (ownsAlways _) progress ?_ ?_ ?_
            <;> simp [pc, Pc.holdsContexto, Pc.consumed]
  | release laco =>
      cases laco with
      | inserir | desfazer => simp [pc, Contexto.esperar] at executed
      | apagar =>
          simp only [pc, releaseMap] at executed
          rw [pc] at progress
          cases executed
          refine inv.moved_call c rfl rfl rfl rfl (ownsAlways _) (ownsAlways _) progress.2 ?_ ?_
            ?_ <;> simp [pc, Pc.holdsContexto, Pc.consumed]
  | waitLock | waitTest | waiting | waitUnlock =>
      simp only [pc] at executed
      exact inv.esperar_pedido notConexao executed
  | idle | testVazio | lockConexao | testConectado | setCallbacks | unlockConexao | returned =>
      simp [pc, Contexto.esperar] at executed

/-! ## The whole system -/

/-- What a statement of `mensagemRecebida` leaves alone: messages only touch the
lock of the callback table and their own run. -/
structure MessageFrame (s t : State) : Prop where
  pc : t.pc = s.pc
  request : t.request = s.request
  contexto : t.contexto = s.contexto
  conexaoMtx : t.conexaoMtx = s.conexaoMtx
  callbackMap : t.callbackMap = s.callbackMap
  primeiraTentativa : t.primeiraTentativa = s.primeiraTentativa
  conectado : t.conectado = s.conectado

theorem mensagemRecebida_frame {chave : StdString} {m : MsgId} {ret : Int}
    (executed : Connect.mensagemRecebida chave m ret s = some t) : MessageFrame s t := by
  unfold Connect.mensagemRecebida at executed
  split at executed
  case h_1 =>
      obtain ⟨lock, _, rfl⟩ := Option.map_eq_some_iff.mp executed
      constructor <;> rfl
  case h_4 | h_6 => split at executed <;> cases executed <;> constructor <;> rfl
  all_goals
    cases executed
    try constructor <;> rfl

theorem Inv.start (inv : Inv program s) {c : CallId}
    (executed : step program s (.start c) = some t) : Inv program t := by
  simp only [step, goto] at executed
  split at executed
  · rename_i idle
    cases executed
    have unissued : s.request c = .unissued := by
      have progress := inv.progress c
      rw [idle] at progress
      exact progress
    cases op : program.op c with
    | conectar =>
        exact inv.outside c rfl rfl rfl rfl (by rw [op, idle]; rfl) (by rw [op]; rfl) unissued
    | desconectar =>
        exact inv.outside c rfl rfl rfl rfl (by rw [op, idle]; rfl) (by rw [op]; rfl) unissued
    | subscribe args =>
        refine inv.moved_unissued c rfl rfl rfl rfl unissued (by rw [op]; rfl) (by rw [op]; rfl)
          rfl ?_ ?_ <;> rw [idle]
        · rfl
        · simp
    | unsubscribe topicos =>
        refine inv.moved_unissued c rfl rfl rfl rfl unissued (by rw [op]; rfl) (by rw [op]; rfl)
          rfl ?_ ?_ <;> rw [idle]
        · rfl
        · simp
  · cases executed

theorem Inv.complete (inv : Inv program s) {c : CallId} {res : Completion}
    (executed : step program s (.complete c res) = some t) : Inv program t := by
  simp only [step] at executed
  split at executed
  · rename_i enabled
    cases executed
    have outstanding : (s.request c).outstanding = true := by
      rw [enabled.1]
      rfl
    refine inv.moved_request c rfl rfl rfl rfl outstanding
      (progress_of_outstanding (inv.progress c) outstanding rfl) trivial ?_ ?_ ?_ ?_ <;>
      rw [enabled.1] <;> rfl
  · cases executed

theorem Inv.deliver (inv : Inv program s) {c : CallId}
    (executed : step program s (.deliver c) = some t) : Inv program t := by
  simp only [step] at executed
  split at executed
  · rename_i res ready
    cases executed
    have outstanding : (s.request c).outstanding = true := by
      rw [ready]
      rfl
    refine inv.moved_request c rfl rfl rfl rfl outstanding
      (progress_of_outstanding (inv.progress c) outstanding rfl) trivial ?_ ?_ ?_ ?_ <;>
      rw [ready] <;> rfl
  · cases executed

/-- Every step of the system preserves the invariant. -/
theorem Inv.step (inv : Inv program s) {label : Label}
    (executed : PahoClient.step program s label = some t) : Inv program t := by
  cases label with
  | start c => exact inv.start executed
  | call c ret =>
      simp only [PahoClient.step] at executed
      cases op : program.op c with
      | conectar =>
          rw [op] at executed
          exact inv.connect_despachar op executed
      | subscribe args =>
          rw [op] at executed
          exact inv.subscribe_despachar op executed
      | unsubscribe topicos =>
          rw [op] at executed
          exact inv.unsubscribe_despachar op executed
      | desconectar =>
          rw [op] at executed
          exact inv.disconnect_despachar op executed
  | wake c => exact inv.acordar executed
  | complete c res => exact inv.complete executed
  | deliver c => exact inv.deliver executed
  | handler c =>
      simp only [PahoClient.step] at executed
      split at executed
      · rename_i res handlerPc running
        exact inv.handle running executed
      · cases executed
  | arrive m =>
      simp only [PahoClient.step] at executed
      split at executed
      · cases executed
        exact inv.frame rfl rfl rfl rfl
      · cases executed
  | message m ret =>
      have frame := mensagemRecebida_frame executed
      exact inv.frame frame.pc frame.request frame.contexto frame.conexaoMtx
  | network conectado =>
      cases executed
      exact inv.frame rfl rfl rfl rfl

end Statements

/-! ## Runs -/

section Runs

variable {program : Program} {start s : State} {history : List (Event State Label)}

theorem Inv.after_run (inv : Inv program start)
    (run : Run (PahoClient.step program) start history s) : Inv program s :=
  run.invariant (Inv program) inv fun _ _ _ inv executed => inv.step executed

/-- The invariant holds in every state that the client can reach. -/
theorem Inv.of_run {callbackMap : CallbackMap} {conectado : Bool}
    (run : Run (PahoClient.step program) (initial callbackMap conectado) history s) :
    Inv program s :=
  (inv_initial program callbackMap conectado).after_run run

/-- Every event of a run is a step from a state with the invariant. -/
theorem Inv.at_event (inv : Inv program start)
    (run : Run (PahoClient.step program) start history s) {event : Event State Label}
    (member : event ∈ history) :
    Inv program event.source ∧
      PahoClient.step program event.source event.label = some event.target := by
  obtain ⟨source, executed, _⟩ := run.invariant_of_mem (Inv program) inv
    (fun _ _ _ inv executed => inv.step executed) member
  exact ⟨source, executed⟩

/-- What every step from a state with the invariant keeps holds after a run. -/
theorem Inv.preserves (holds : State → Prop) (inv : Inv program start)
    (run : Run (PahoClient.step program) start history s) (initially : holds start)
    (kept : ∀ event ∈ history, Inv program event.source →
      PahoClient.step program event.source event.label = some event.target →
      holds event.source → holds event.target) : holds s := by
  apply run.preserves holds initially
  intro event member executed before
  exact kept event member (inv.at_event run member).1 executed before

end Runs

end PahoClient
