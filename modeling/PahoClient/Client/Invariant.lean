import PahoClient.Client.Step

/-!
# The protocol between a call, its context and its completion handler

A call owns the context through which it waits: the subscribe and unsubscribe
calls own their temporary, and the holder of `_conexao_mtx` owns the connect or
the disconnect context of the client.  The invariant states what an owned
context contains at every pair of positions of the call and of the handler of
its command, and that a context without an owner is as good as new.
-/

namespace PahoClient

open PahoClient.Transition

/-! ## Positions -/

namespace Pc

/-- The call holds `_finalizada_mtx` of its context. -/
def holdsContexto : Pc → Bool
  | waitTest | waitUnlock _ => true
  | _ => false

/-- The call has reset the flag of its context, or will not read it any more. -/
def consumed : Pc → Bool
  | waitUnlock _ | unlockConexao _ | returned _ => true
  | _ => false

/-- The call has started and has not returned. -/
def inProgress : Pc → Bool
  | idle | returned _ => false
  | _ => true

/-- The call is in its `esperar` frame and has not read the result yet. -/
def inWait : Pc → Bool
  | waitLock | waitTest | waiting => true
  | _ => false

end Pc

namespace HandlerPc

/-- The handler holds `_finalizada_mtx` of the context. -/
def holdsContexto : HandlerPc → Bool
  | mark | notify | unlock => true
  | _ => false

/-- The handler has set `_finalizada`. -/
def marked : HandlerPc → Bool
  | notify | unlock => true
  | _ => false

/-- The handler has stored `_res`. -/
def stored : HandlerPc → Bool
  | lock | mark | notify | unlock => true
  | _ => false

end HandlerPc

namespace Request

/-- The library accepted the command. -/
def accepted : Request → Bool
  | pending | ready _ | running _ _ | done _ => true
  | unissued | rejected _ => false

/-- The library still has to finish the command or to run its handler. -/
def outstanding : Request → Bool
  | pending | ready _ | running _ _ => true
  | unissued | rejected _ | done _ => false

def holdsContexto : Request → Bool
  | running _ pc => pc.holdsContexto
  | _ => false

def marked : Request → Bool
  | running _ pc => pc.marked
  | done _ => true
  | _ => false

/-- The completion whose result is in `_res`. -/
def stored : Request → Option Completion
  | running res pc => if pc.stored then some res else none
  | done res => some res
  | _ => none

/-- The handler has executed `notify_one`. -/
def notified : Request → Bool
  | running _ .unlock | done _ => true
  | _ => false

end Request

/-- Whether a call at a given position owns its context. -/
def owns : Operation → Pc → Bool
  | .subscribe _, _ | .unsubscribe _, _ => true
  | .conectar, .testConectado | .conectar, .setCallbacks => true
  | .conectar, .command | .desconectar, .command => true
  | .conectar, .waitLock | .desconectar, .waitLock => true
  | .conectar, .waitTest | .desconectar, .waitTest => true
  | .conectar, .waiting | .desconectar, .waiting => true
  | .conectar, .waitUnlock _ | .desconectar, .waitUnlock _ => true
  | .conectar, .unlockConexao _ | .desconectar, .unlockConexao _ => true
  | .conectar, _ | .desconectar, _ => false

/-! ## The invariant -/

/-- How far the command of a call can be when the call is at a given position,
and which result the call carries out of its `esperar` frame. -/
def progress (op : Operation) : Pc → Request → Prop
  | .idle, request | .testVazio, request | .lockConexao, request
  | .testConectado, request | .setCallbacks, request | .command, request
  | .acquire .inserir, request | .loop .inserir, request
  | .release .inserir, request => request = .unissued
  | .acquire .desfazer, request | .loop .desfazer, request
  | .release .desfazer, request => ∃ ret, request = .rejected ret
  | .acquire .apagar, request | .loop .apagar, request | .release .apagar, request =>
      op.usesConexao = false ∧ request.accepted = true
  | .waitLock, request | .waitTest, request | .waiting, request => request.accepted = true
  | .waitUnlock value, request => ∃ res, request = .done res ∧ value = op.outcome res
  | .unlockConexao value, request | .returned value, request =>
      request = .unissued ∨ (∃ ret, request = .rejected ret ∧ value = false) ∨
        ∃ res, request = .done res ∧ value = op.outcome res

/-- What a handler at a given position knows about the completion it reports. -/
def reports (op : Operation) : Request → Prop
  | .running res (.store value) => value = op.outcome res
  | .running res .acquire | .running res .loop | .running res .release =>
      op.outcome res = false
  | _ => True

/-- The content of an owned context. -/
structure Agrees (op : Operation) (c : CallId) (pc : Pc) (request : Request)
    (x : Contexto) : Prop where
  exclusive : pc.holdsContexto = true → request.holdsContexto = false
  mutex : x.finalizadaMtx =
    if pc.holdsContexto then some (.call c)
    else if request.holdsContexto then some (.handler c) else none
  flag : x.finalizada = (request.marked && !pc.consumed)
  value : ∀ res, request.stored = some res → x.res = op.outcome res
  blocked : x.finalizadaCv = [] ∨
    x.finalizadaCv = [c] ∧ pc = .waiting ∧ request.notified = false

/-- A context that nobody is using. -/
structure Contexto.Quiet (x : Contexto) : Prop where
  mutex : x.finalizadaMtx = none
  flag : x.finalizada = false
  blocked : x.finalizadaCv = []

/-- The invariant of the client. -/
structure Inv (program : Program) (s : State) : Prop where
  progress : ∀ c, progress (program.op c) (s.pc c) (s.request c)
  reports : ∀ c, reports (program.op c) (s.request c)
  agrees : ∀ c, owns (program.op c) (s.pc c) = true →
    Agrees (program.op c) c (s.pc c) (s.request c) (s.contexto (contextOf (program.op c) c))
  mutex : ∀ c, (program.op c).usesConexao = true →
    (owns (program.op c) (s.pc c) = true ↔ s.conexaoMtx = some c)
  holder : ∀ c, s.conexaoMtx = some c → (program.op c).usesConexao = true
  quiet : ∀ x, (∀ c, owns (program.op c) (s.pc c) = true →
    contextOf (program.op c) c ≠ x) → (s.contexto x).Quiet

section Agrees

variable {op : Operation} {c : CallId} {pc : Pc} {request : Request} {x : Contexto}

/-- Only a call in `wait` is blocked on its condition variable. -/
theorem Agrees.not_blocked (agrees : Agrees op c pc request x) (notWaiting : pc ≠ .waiting) :
    x.finalizadaCv = [] := by
  rcases agrees.blocked with empty | ⟨_, waiting, _⟩
  · exact empty
  · exact absurd waiting notWaiting

/-- A free mutex is held neither by the call nor by the handler. -/
theorem Agrees.not_held (agrees : Agrees op c pc request x) (unlocked : x.finalizadaMtx = none) :
    pc.holdsContexto = false ∧ request.holdsContexto = false := by
  have mutex := agrees.mutex
  rw [unlocked] at mutex
  cases holds : pc.holdsContexto <;> cases held : request.holdsContexto <;>
    simp [holds, held] at mutex ⊢

/-- A handler that holds the mutex keeps the call from holding it. -/
theorem Agrees.not_holding (agrees : Agrees op c pc request x)
    (held : request.holdsContexto = true) : pc.holdsContexto = false := by
  cases holds : pc.holdsContexto with
  | false => rfl
  | true =>
      rw [agrees.exclusive holds] at held
      cases held

end Agrees

/-- An unissued command leaves an owned context quiet. -/
theorem Agrees.quiet_of_not_accepted {op : Operation} {c : CallId} {pc : Pc}
    {request : Request} {x : Contexto} (agrees : Agrees op c pc request x)
    (notAccepted : request.accepted = false) (notWaiting : pc.inWait = false)
    (notHolding : pc.holdsContexto = false) : x.Quiet := by
  have notHeld : request.holdsContexto = false := by
    cases request <;> simp_all [Request.accepted, Request.holdsContexto]
  have notMarked : request.marked = false := by
    cases request <;> simp_all [Request.accepted, Request.marked]
  constructor
  · rw [agrees.mutex]
    simp [notHolding, notHeld]
  · rw [agrees.flag]
    simp [notMarked]
  · apply agrees.not_blocked
    rintro rfl
    cases notWaiting

/-- Once the call is past its `esperar` frame the context is quiet. -/
theorem Agrees.quiet_of_done {op : Operation} {c : CallId} {pc : Pc} {res : Completion}
    {x : Contexto} (agrees : Agrees op c pc (.done res) x) (consumed : pc.consumed = true)
    (notHolding : pc.holdsContexto = false) : x.Quiet := by
  constructor
  · rw [agrees.mutex]
    simp [notHolding, Request.holdsContexto]
  · rw [agrees.flag]
    simp [consumed]
  · apply agrees.not_blocked
    rintro rfl
    cases consumed

/-- A quiet context agrees with a call that has not issued its command. -/
theorem Contexto.Quiet.agrees {op : Operation} {c : CallId} {pc : Pc} {x : Contexto}
    (quiet : x.Quiet) (notHolding : pc.holdsContexto = false) :
    Agrees op c pc .unissued x where
  exclusive := by simp [Request.holdsContexto]
  mutex := by simp [notHolding, Request.holdsContexto, quiet.mutex]
  flag := by simp [Request.marked, quiet.flag]
  value := by simp [Request.stored]
  blocked := Or.inl quiet.blocked

theorem Contexto.quiet_new : Contexto.new.Quiet :=
  ⟨rfl, rfl, rfl⟩

theorem owns_idle_of_usesConexao {op : Operation} (uses : op.usesConexao = true) :
    owns op .idle = false := by
  cases op <;> simp_all [owns, Operation.usesConexao]

theorem owns_of_not_usesConexao {op : Operation} (uses : op.usesConexao = false) (pc : Pc) :
    owns op pc = true := by
  cases op <;> simp_all [owns, Operation.usesConexao]

/-- The invariant holds before any thread has used the client. -/
theorem inv_initial (program : Program) (callbackMap : CallbackMap) (conectado : Bool) :
    Inv program (initial callbackMap conectado) where
  progress _ := rfl
  reports _ := trivial
  agrees _ _ := Contexto.quiet_new.agrees rfl
  mutex c uses := by simp [initial, owns_idle_of_usesConexao uses]
  holder c held := by simp [initial] at held
  quiet _ _ := Contexto.quiet_new

/-! ## One call at a time owns a context -/

/-- Different owners use different contexts. -/
theorem Inv.owner_unique {program : Program} {s : State} (inv : Inv program s) {c d : CallId}
    (ownsFirst : owns (program.op c) (s.pc c) = true)
    (ownsSecond : owns (program.op d) (s.pc d) = true)
    (same : contextOf (program.op c) c = contextOf (program.op d) d) : c = d := by
  cases first : program.op c <;> cases second : program.op d <;>
    simp only [first, second, contextOf, reduceCtorEq, ContextId.pedido.injEq] at same
  case conectar.conectar | desconectar.desconectar =>
      have holdsFirst := (inv.mutex c (by simp [first, Operation.usesConexao])).mp ownsFirst
      have holdsSecond := (inv.mutex d (by simp [second, Operation.usesConexao])).mp ownsSecond
      exact Option.some.inj (holdsFirst.symm.trans holdsSecond)
  all_goals exact same

/-- Only the owner of a context has a command that the library still works on. -/
theorem Inv.owns_of_outstanding {program : Program} {s : State} (inv : Inv program s)
    {c : CallId} (outstanding : (s.request c).outstanding = true) :
    owns (program.op c) (s.pc c) = true := by
  have progress := inv.progress c
  cases uses : (program.op c).usesConexao with
  | false => exact owns_of_not_usesConexao uses _
  | true =>
      generalize program.op c = op at progress uses ⊢
      generalize s.request c = request at progress outstanding
      cases pc : s.pc c with
      | acquire laco | loop laco | release laco =>
          rw [pc] at progress
          cases laco with
          | inserir =>
              subst request
              simp [Request.outstanding] at outstanding
          | desfazer =>
              obtain ⟨ret, rfl⟩ := progress
              simp [Request.outstanding] at outstanding
          | apagar =>
              simp [PahoClient.progress, uses] at progress
      | waitLock | waitTest | waiting | waitUnlock | unlockConexao =>
          cases op <;> simp_all [owns, Operation.usesConexao]
      | idle | testVazio | lockConexao | testConectado | setCallbacks | command =>
          rw [pc] at progress
          subst request
          simp [Request.outstanding] at outstanding
      | returned =>
          rw [pc] at progress
          rcases progress with rfl | ⟨ret, rfl, _⟩ | ⟨res, rfl, _⟩ <;>
            simp [Request.outstanding] at outstanding

/-! ## Preservation, one kind of step at a time -/

section Preservation

variable {program : Program} {s t : State}

/-- Steps that leave the calls, the commands and the contexts alone. -/
theorem Inv.frame (inv : Inv program s) (pcEq : t.pc = s.pc) (requestEq : t.request = s.request)
    (contextoEq : t.contexto = s.contexto) (mutexEq : t.conexaoMtx = s.conexaoMtx) :
    Inv program t where
  progress := by rw [pcEq, requestEq]; exact inv.progress
  reports := by rw [requestEq]; exact inv.reports
  agrees := by rw [pcEq, requestEq, contextoEq]; exact inv.agrees
  mutex := by rw [pcEq, mutexEq]; exact inv.mutex
  holder := by rw [mutexEq]; exact inv.holder
  quiet := by rw [pcEq, contextoEq]; exact inv.quiet

/-- A step of the owner of a context or of its handler. -/
theorem Inv.owned (inv : Inv program s) (c : CallId) {pc : Pc} {request : Request} {x : Contexto}
    (pcEq : t.pc = Function.update s.pc c pc)
    (requestEq : t.request = Function.update s.request c request)
    (contextoEq : t.contexto = Function.update s.contexto (contextOf (program.op c) c) x)
    (mutexEq : t.conexaoMtx = s.conexaoMtx)
    (ownsBefore : owns (program.op c) (s.pc c) = true)
    (ownsAfter : owns (program.op c) pc = true)
    (progressAfter : PahoClient.progress (program.op c) pc request)
    (reportsAfter : PahoClient.reports (program.op c) request)
    (agreesAfter : Agrees (program.op c) c pc request x) : Inv program t where
  progress d := by
    rw [pcEq, requestEq]
    by_cases same : d = c
    · subst d
      simpa using progressAfter
    · simpa [same] using inv.progress d
  reports d := by
    rw [requestEq]
    by_cases same : d = c
    · subst d
      simpa using reportsAfter
    · simpa [same] using inv.reports d
  agrees d ownsD := by
    rw [pcEq] at ownsD
    rw [pcEq, requestEq, contextoEq]
    by_cases same : d = c
    · subst d
      simpa using agreesAfter
    · simp only [Function.update_of_ne same] at ownsD ⊢
      have apart : contextOf (program.op d) d ≠ contextOf (program.op c) c := by
        intro equal
        exact same (inv.owner_unique ownsD ownsBefore equal)
      rw [Function.update_of_ne apart]
      exact inv.agrees d ownsD
  mutex d uses := by
    rw [pcEq, mutexEq]
    by_cases same : d = c
    · subst d
      simpa [ownsAfter, ownsBefore] using inv.mutex c uses
    · simpa [same] using inv.mutex d uses
  holder d := by
    rw [mutexEq]
    exact inv.holder d
  quiet y unowned := by
    rw [pcEq] at unowned
    have apart : contextOf (program.op c) c ≠ y := unowned c (by simpa using ownsAfter)
    rw [contextoEq, Function.update_of_ne apart.symm]
    apply inv.quiet
    intro d ownsD
    by_cases same : d = c
    · subst d
      exact apart
    · exact unowned d (by simpa [same] using ownsD)

/-- A step of a call that does not own its context. -/
theorem Inv.outside (inv : Inv program s) (c : CallId) {pc : Pc}
    (pcEq : t.pc = Function.update s.pc c pc) (requestEq : t.request = s.request)
    (contextoEq : t.contexto = s.contexto) (mutexEq : t.conexaoMtx = s.conexaoMtx)
    (ownsBefore : owns (program.op c) (s.pc c) = false)
    (ownsAfter : owns (program.op c) pc = false)
    (progressAfter : PahoClient.progress (program.op c) pc (s.request c)) :
    Inv program t where
  progress d := by
    rw [pcEq, requestEq]
    by_cases same : d = c
    · subst d
      simpa using progressAfter
    · simpa [same] using inv.progress d
  reports := by rw [requestEq]; exact inv.reports
  agrees d ownsD := by
    rw [pcEq] at ownsD
    rw [pcEq, requestEq, contextoEq]
    by_cases same : d = c
    · subst d
      simp [ownsAfter] at ownsD
    · simp only [Function.update_of_ne same] at ownsD ⊢
      exact inv.agrees d ownsD
  mutex d uses := by
    rw [pcEq, mutexEq]
    by_cases same : d = c
    · subst d
      simpa [ownsAfter, ownsBefore] using inv.mutex c uses
    · simpa [same] using inv.mutex d uses
  holder d := by
    rw [mutexEq]
    exact inv.holder d
  quiet y unowned := by
    rw [contextoEq]
    apply inv.quiet
    intro d ownsD
    by_cases same : d = c
    · subst d
      simp [ownsBefore] at ownsD
    · apply unowned d
      rw [pcEq]
      simpa [same] using ownsD

/-- Taking `_conexao_mtx` makes a call the owner of its context. -/
theorem Inv.locked (inv : Inv program s) (c : CallId) {pc : Pc}
    (uses : (program.op c).usesConexao = true) (unlocked : s.conexaoMtx = none)
    (pcEq : t.pc = Function.update s.pc c pc) (requestEq : t.request = s.request)
    (contextoEq : t.contexto = s.contexto) (mutexEq : t.conexaoMtx = some c)
    (ownsAfter : owns (program.op c) pc = true)
    (unissued : s.request c = .unissued)
    (progressAfter : PahoClient.progress (program.op c) pc .unissued)
    (notHolding : pc.holdsContexto = false) : Inv program t := by
  have nobody : ∀ d, (program.op d).usesConexao = true →
      owns (program.op d) (s.pc d) = false := by
    intro d usesD
    have held := inv.mutex d usesD
    rw [unlocked] at held
    simpa using held
  have quietContexto : (s.contexto (contextOf (program.op c) c)).Quiet := by
    apply inv.quiet
    intro d ownsD equal
    have usesD : (program.op d).usesConexao = true := by
      cases first : program.op d <;> cases second : program.op c <;>
        simp_all [contextOf, Operation.usesConexao]
    simp [nobody d usesD] at ownsD
  constructor
  · intro d
    rw [pcEq, requestEq]
    by_cases same : d = c
    · subst d
      simpa [unissued] using progressAfter
    · simpa [same] using inv.progress d
  · rw [requestEq]
    exact inv.reports
  · intro d ownsD
    rw [pcEq] at ownsD
    rw [pcEq, requestEq, contextoEq]
    by_cases same : d = c
    · subst d
      simpa [unissued] using quietContexto.agrees notHolding
    · simp only [Function.update_of_ne same] at ownsD ⊢
      exact inv.agrees d ownsD
  · intro d usesD
    rw [pcEq, mutexEq]
    by_cases same : d = c
    · subst d
      simp [ownsAfter]
    · simp only [Function.update_of_ne same, nobody d usesD, Option.some.injEq]
      simp [Ne.symm same]
  · intro d held
    rw [mutexEq] at held
    cases Option.some.inj held
    exact uses
  · intro y unowned
    rw [contextoEq]
    apply inv.quiet
    intro d ownsD
    apply unowned d
    rw [pcEq]
    by_cases same : d = c
    · subst d
      simpa using ownsAfter
    · simpa [same] using ownsD

/-- Releasing `_conexao_mtx` leaves a quiet context behind. -/
theorem Inv.unlocked (inv : Inv program s) (c : CallId) {value : Bool}
    (uses : (program.op c).usesConexao = true) (pcBefore : s.pc c = .unlockConexao value)
    (pcEq : t.pc = Function.update s.pc c (.returned value)) (requestEq : t.request = s.request)
    (contextoEq : t.contexto = s.contexto) (mutexEq : t.conexaoMtx = none) :
    Inv program t := by
  have ownsBefore : owns (program.op c) (s.pc c) = true := by
    rw [pcBefore]
    cases op : program.op c <;> rfl
  have ownsAfter : owns (program.op c) (.returned value) = false := by
    cases op : program.op c <;> simp_all [owns, Operation.usesConexao]
  have held : s.conexaoMtx = some c := (inv.mutex c uses).mp ownsBefore
  have progressBefore := inv.progress c
  rw [pcBefore] at progressBefore
  have quietContexto : (s.contexto (contextOf (program.op c) c)).Quiet := by
    have agrees := inv.agrees c ownsBefore
    rw [pcBefore] at agrees
    rcases progressBefore with unissued | ⟨ret, rejected, _⟩ | ⟨res, done, _⟩
    · exact agrees.quiet_of_not_accepted (by simp [unissued, Request.accepted]) rfl rfl
    · exact agrees.quiet_of_not_accepted (by simp [rejected, Request.accepted]) rfl rfl
    · rw [done] at agrees
      exact agrees.quiet_of_done rfl rfl
  constructor
  · intro d
    rw [pcEq, requestEq]
    by_cases same : d = c
    · subst d
      rw [Function.update_self]
      exact progressBefore
    · simpa [same] using inv.progress d
  · rw [requestEq]
    exact inv.reports
  · intro d ownsD
    rw [pcEq] at ownsD
    rw [pcEq, requestEq, contextoEq]
    by_cases same : d = c
    · subst d
      simp [ownsAfter] at ownsD
    · simp only [Function.update_of_ne same] at ownsD ⊢
      exact inv.agrees d ownsD
  · intro d usesD
    rw [pcEq, mutexEq]
    by_cases same : d = c
    · subst d
      simp [ownsAfter]
    · have others := inv.mutex d usesD
      rw [held] at others
      simpa [same, Ne.symm same] using others
  · intro d heldD
    simp [mutexEq] at heldD
  · intro y unowned
    rw [contextoEq]
    by_cases own : contextOf (program.op c) c = y
    · rw [← own]
      exact quietContexto
    · apply inv.quiet
      intro d ownsD
      by_cases same : d = c
      · subst d
        exact own
      · apply unowned d
        rw [pcEq]
        simpa [same] using ownsD

end Preservation

end PahoClient
