import PahoClient.Client.Registration

/-!
# Calls that run alone

The big-step meaning of each operation: what the whole call does to the table
and to the connection, and what it returns, for a given answer of the library.
A call whose topics no other call touches is shown to have the effect of its
big-step meaning on them, whatever the other threads do in between.
-/

namespace PahoClient

open PahoClient.Transition
open PahoClient.Store

/-! ## Big-step meaning -/

/-- What the library does with the command of a call. -/
inductive Resposta where
  | rejeitada (ret : Int) (erro : ret ≠ MQTTASYNC_SUCCESS)
  | concluida (res : Completion)

/-- The members of the client that outlive its calls. -/
structure Cliente where
  callbackMap : CallbackMap
  conectado : Bool

/-- `Connect::despachar` without interference.  A rejected command stands for a
failure of `setCallbacks` as well. -/
def Connect.executar (resposta : Resposta) (cliente : Cliente) : Cliente × Bool :=
  if cliente.conectado then (cliente, true)
  else
    match resposta with
    | .rejeitada _ _ => (cliente, false)
    | .concluida res =>
        ({ cliente with conectado := conectadoAfter .conectar res cliente.conectado },
          Operation.outcome .conectar res)

/-- `Subscribe::despachar` without interference. -/
def Subscribe.executar (args : Subscribe.Args) (resposta : Resposta) (cliente : Cliente) :
    Cliente × Bool :=
  if args.topicos.isEmpty then (cliente, false)
  else
    let inscrito := Subscribe.inserir args cliente.callbackMap
    match resposta with
    | .rejeitada _ _ => ({ cliente with callbackMap := Subscribe.desfazer args inscrito }, false)
    | .concluida res =>
        if (Operation.subscribe args).outcome res then
          ({ cliente with callbackMap := inscrito }, true)
        else
          ({ cliente with callbackMap := Subscribe.desfazer args inscrito }, false)

/-- `Unsubscribe::despachar` without interference. -/
def Unsubscribe.executar (topicos : List StdString) (resposta : Resposta) (cliente : Cliente) :
    Cliente × Bool :=
  match resposta with
  | .rejeitada _ _ => (cliente, false)
  | .concluida res =>
      ({ cliente with callbackMap := Unsubscribe.apagar topicos cliente.callbackMap },
        (Operation.unsubscribe topicos).outcome res)

/-- `Disconnect::despachar` without interference. -/
def Disconnect.executar (resposta : Resposta) (cliente : Cliente) : Cliente × Bool :=
  if !cliente.conectado then (cliente, true)
  else
    match resposta with
    | .rejeitada _ _ => (cliente, false)
    | .concluida res =>
        ({ cliente with conectado := conectadoAfter .desconectar res cliente.conectado },
          Operation.outcome .desconectar res)

/-- A whole call without interference. -/
def executar : Operation → Resposta → Cliente → Cliente × Bool
  | .conectar => Connect.executar
  | .subscribe args => Subscribe.executar args
  | .unsubscribe topicos => Unsubscribe.executar topicos
  | .desconectar => Disconnect.executar

/-! ## The updates of a whole call -/

/-- The loops that a whole call executes, newest first. -/
def lacosDe : Operation → Resposta → List Laco
  | .subscribe args, .rejeitada _ _ => if args.topicos.isEmpty then [] else [.desfazer, .inserir]
  | .subscribe args, .concluida res =>
      if args.topicos.isEmpty then []
      else if (Operation.subscribe args).outcome res then [.inserir] else [.desfazer, .inserir]
  | .unsubscribe _, .concluida _ => [.apagar]
  | .unsubscribe _, .rejeitada _ _ | .conectar, _ | .desconectar, _ => []

/-- The updates of a list of loops of one call. -/
def loopUpdates (op : Operation) (c : CallId) (loops : List Laco) :
    Log CallId StdString Callback :=
  loops.map fun laco => (c, edit op laco)

/-- A whole call changes the table by its loops. -/
theorem executar_callbackMap (op : Operation) (resposta : Resposta) (cliente : Cliente)
    (c : CallId) :
    (executar op resposta cliente).1.callbackMap =
      Log.replay cliente.callbackMap (loopUpdates op c (lacosDe op resposta)) := by
  cases op with
  | conectar =>
      simp only [executar, Connect.executar]
      split
      · rfl
      · cases resposta <;> rfl
  | desconectar =>
      simp only [executar, Disconnect.executar]
      split
      · rfl
      · cases resposta <;> rfl
  | unsubscribe topicos => cases resposta <;> rfl
  | subscribe args =>
      simp only [executar, Subscribe.executar, Subscribe.desfazer_eq_eraseAll]
      cases resposta with
      | rejeitada ret erro =>
          simp only [lacosDe]
          split <;> rfl
      | concluida res =>
          simp only [lacosDe]
          split
          · rfl
          · split <;> rfl

theorem not_mem_keys_of_loopUpdates {op : Operation} {c : CallId} {loops : List Laco}
    {topico : StdString} (unnamed : topico ∉ op.topicos) :
    ∀ entry ∈ loopUpdates op c loops, topico ∉ entry.2.keys := by
  intro entry member named
  obtain ⟨laco, _, rfl⟩ := List.mem_map.mp member
  exact unnamed (mem_topicos_of_mem_keys named)

/-- A call leaves the entries of other topics alone. -/
theorem executar_of_not_mem {op : Operation} {topico : StdString} (resposta : Resposta)
    (cliente : Cliente) (unnamed : topico ∉ op.topicos) :
    (executar op resposta cliente).1.callbackMap topico = cliente.callbackMap topico := by
  rw [executar_callbackMap op resposta cliente 0]
  exact Log.replay_of_unnamed _ (not_mem_keys_of_loopUpdates unnamed)

/-- The entry of a topic after a call depends on its entry before. -/
theorem executar_congr (op : Operation) (resposta : Resposta) {cliente other : Cliente}
    {topico : StdString} (same : cliente.callbackMap topico = other.callbackMap topico) :
    (executar op resposta cliente).1.callbackMap topico =
      (executar op resposta other).1.callbackMap topico := by
  rw [executar_callbackMap op resposta cliente 0, executar_callbackMap op resposta other 0]
  exact Log.replay_congr _ same

/-! ## From positions to answers -/

/-- The answer is the one that the library has given to a command so far. -/
def Replied (resposta : Resposta) : Request → Prop
  | .unissued => True
  | .rejected ret => ∃ erro, resposta = .rejeitada ret erro
  | .pending => ∃ res, resposta = .concluida res
  | .ready res | .running res _ | .done res => resposta = .concluida res

/-- A subscribe call issues its command exactly when its list is not empty, and
an unsubscribe call always does. -/
def entered (op : Operation) (pc : Pc) (request : Request) : Prop :=
  match op, pc with
  | .subscribe _, .idle | .subscribe _, .testVazio => True
  | .subscribe args, .returned value =>
      (request = .unissued ∧ args.topicos = [] ∧ value = false) ∨
        request ≠ .unissued ∧ args.topicos ≠ []
  | .subscribe args, _ => args.topicos ≠ []
  | .unsubscribe _, .returned _ => request ≠ .unissued
  | _, _ => True

/-- A returned call has executed the loops of its big-step meaning. -/
theorem lacosAt_returned {op : Operation} {value : Bool} {request : Request}
    {resposta : Resposta} (progress : progress op (.returned value) request)
    (enters : entered op (.returned value) request) (replied : Replied resposta request) :
    lacosAt op (.returned value) request = lacosDe op resposta := by
  cases op with
  | conectar | desconectar => rfl
  | unsubscribe topicos =>
      rcases progress with unissued | ⟨ret, rfl, _⟩ | ⟨res, rfl, _⟩
      · exact absurd unissued enters
      · obtain ⟨erro, rfl⟩ := replied
        rfl
      · rw [Replied] at replied
        subst resposta
        rfl
  | subscribe args =>
      rcases progress with rfl | ⟨ret, rfl, _⟩ | ⟨res, rfl, _⟩
      · have empty : args.topicos = [] ∧ value = false := by simpa [entered] using enters
        cases resposta <;> simp [lacosAt, lacosDe, empty.1]
      · have nonempty : args.topicos ≠ [] := by simpa [entered] using enters
        obtain ⟨erro, rfl⟩ := replied
        simp [lacosAt, lacosDe, nonempty]
      · have nonempty : args.topicos ≠ [] := by simpa [entered] using enters
        rw [Replied] at replied
        subst resposta
        cases outcome : (Operation.subscribe args).outcome res <;>
          simp [lacosAt, lacosDe, nonempty, Request.desfeito, outcome]

/-- A returned call returns what its big-step meaning returns. -/
theorem executar_value {op : Operation} {value : Bool} {request : Request} {resposta : Resposta}
    (cliente : Cliente) (uses : op.usesConexao = false)
    (progress : progress op (.returned value) request)
    (enters : entered op (.returned value) request)
    (replied : Replied resposta request) : (executar op resposta cliente).2 = value := by
  cases op with
  | conectar | desconectar => cases uses
  | unsubscribe topicos =>
      rcases progress with unissued | ⟨ret, rfl, rfl⟩ | ⟨res, rfl, rfl⟩
      · exact absurd unissued enters
      · obtain ⟨erro, rfl⟩ := replied
        rfl
      · rw [Replied] at replied
        subst resposta
        rfl
  | subscribe args =>
      rcases progress with rfl | ⟨ret, rfl, rfl⟩ | ⟨res, rfl, rfl⟩
      · have empty : args.topicos = [] ∧ value = false := by simpa [entered] using enters
        simp [executar, Subscribe.executar, empty]
      · have nonempty : args.topicos ≠ [] := by simpa [entered] using enters
        obtain ⟨erro, rfl⟩ := replied
        simp [executar, Subscribe.executar, nonempty]
      · have nonempty : args.topicos ≠ [] := by simpa [entered] using enters
        rw [Replied] at replied
        subst resposta
        cases outcome : (Operation.subscribe args).outcome res <;>
          simp [executar, Subscribe.executar, nonempty, outcome]

theorem entered_of_accepted {op : Operation} {pc : Pc} {request request' : Request}
    (before : entered op pc request) (accepted : request.accepted = true)
    (stillAccepted : request'.accepted = true) : entered op pc request' := by
  have first : request ≠ .unissued := by
    rintro rfl
    cases accepted
  have second : request' ≠ .unissued := by
    rintro rfl
    cases stillAccepted
  cases op with
  | conectar | desconectar => trivial
  | subscribe args => cases pc <;> simp_all [entered]
  | unsubscribe topicos => cases pc <;> simp_all [entered]

section Alone

variable {program : Program} {s t start : State} {label : Label}
  {history : List (Event State Label)} {c : CallId}

theorem entered_call (inv : Inv program s) {ret : Int}
    (executed : step program s (.call c ret) = some t)
    (before : entered (program.op c) (s.pc c) (s.request c)) :
    entered (program.op c) (t.pc c) (t.request c) := by
  have progress := inv.progress c
  rw [pc_of_call executed, request_of_call executed]
  simp only [step] at executed
  cases op : program.op c with
  | conectar | desconectar => trivial
  | subscribe args =>
      simp only [op, despachar, Subscribe.despachar] at executed
      rw [op] at before progress
      cases pc : s.pc c with
      | testVazio =>
          rw [pc] at progress
          simp only [callNext, pc]
          split <;> simp_all [entered, PahoClient.progress]
      | command =>
          simp only [callNext, pc]
          split <;> simp_all [entered]
      | acquire laco | loop laco => cases laco <;> simp_all [entered, callNext]
      | release laco =>
          cases laco with
          | inserir => simp_all [entered, callNext]
          | desfazer =>
              rw [pc] at progress
              obtain ⟨code, rejected⟩ := progress
              simp_all [entered, callNext]
          | apagar => simp [Contexto.esperar, pc] at executed
      | waitTest =>
          simp only [callNext, pc, waitNext]
          split <;> simp_all [entered]
      | waitUnlock value =>
          rw [pc] at progress
          obtain ⟨res, done, _⟩ := progress
          simp_all [entered, callNext, waitNext]
      | waitLock | waiting => simp_all [entered, callNext, waitNext]
      | idle | lockConexao | testConectado | setCallbacks | unlockConexao | returned =>
          simp [Contexto.esperar, pc] at executed
  | unsubscribe topicos =>
      simp only [op, despachar, Unsubscribe.despachar] at executed
      rw [op] at before progress
      cases pc : s.pc c with
      | command =>
          simp only [callNext, pc]
          split <;> simp_all [entered]
      | acquire laco | loop laco => cases laco <;> simp_all [entered, callNext]
      | release laco =>
          cases laco with
          | apagar => simp_all [entered, callNext]
          | inserir | desfazer => simp [Contexto.esperar, pc] at executed
      | waitTest =>
          simp only [callNext, pc, waitNext]
          split <;> simp_all [entered]
      | waitUnlock value =>
          rw [pc] at progress
          obtain ⟨res, done, _⟩ := progress
          simp_all [entered, callNext, waitNext]
      | waitLock | waiting => simp_all [entered, callNext, waitNext]
      | idle | testVazio | lockConexao | testConectado | setCallbacks | unlockConexao
        | returned => simp [Contexto.esperar, pc] at executed

theorem entered_step (inv : Inv program s) (executed : step program s label = some t)
    (before : entered (program.op c) (s.pc c) (s.request c)) :
    entered (program.op c) (t.pc c) (t.request c) := by
  by_cases own : ∃ ret, label = .call c ret
  · obtain ⟨ret, rfl⟩ := own
    exact entered_call inv executed before
  have notCall : ∀ ret, label ≠ .call c ret := fun ret labelEq => own ⟨ret, labelEq⟩
  rcases pc_of_not_call executed notCall with same | ⟨_, entry⟩
  · rw [same]
    rcases request_of_not_call executed notCall with unchanged | ⟨accepted, still⟩
    · rw [unchanged]
      exact before
    · exact entered_of_accepted before accepted still
  · rw [entry]
    cases program.op c <;> trivial

theorem entered_of_run (run : Run (step program) start history s) (inv : Inv program start)
    (idle : start.pc c = .idle) : entered (program.op c) (s.pc c) (s.request c) := by
  apply inv.preserves (fun state => entered (program.op c) (state.pc c) (state.request c)) run
  · rw [idle]
    cases program.op c <;> trivial
  · intro event _ source executed before
    exact entered_step source executed before

/-- An idle call has no loops behind it. -/
theorem lacosAt_idle (op : Operation) (request : Request) : lacosAt op .idle request = [] := by
  cases op <;> rfl

/-- The entry of a topic that only one call updates is what the loops of that
call make of it. -/
theorem callbackMap_of_alone (run : Run (step program) start history s)
    (inv : Inv program start) (idle : start.pc c = .idle) {topico : StdString}
    (alone : ∀ d update, (d, update) ∈ updates program history → topico ∈ update.keys → d = c) :
    s.callbackMap topico = Log.replay start.callbackMap
      (loopUpdates (program.op c) c (lacosAt (program.op c) (s.pc c) (s.request c))) topico := by
  have loops := lacosAt_of_run run inv c
  rw [idle, lacosAt_idle, List.append_nil] at loops
  rw [callbackMap_of_run run, loops, loopUpdates, ← updates_filter]
  symm
  apply Log.replay_filter
  rintro ⟨d, update⟩ member dropped named
  rw [alone d update member named] at dropped
  simp at dropped

/-- A call that has returned has the effect of its big-step meaning on every
topic that no other call updates meanwhile. -/
theorem executar_of_alone (run : Run (step program) start history s)
    (inv : Inv program start) (idle : start.pc c = .idle) {value : Bool}
    (returned : s.pc c = .returned value) {resposta : Resposta}
    (replied : Replied resposta (s.request c)) (cliente : Cliente)
    (before : cliente.callbackMap = start.callbackMap) {topico : StdString}
    (alone : ∀ d update, (d, update) ∈ updates program history → topico ∈ update.keys → d = c) :
    s.callbackMap topico = (executar (program.op c) resposta cliente).1.callbackMap topico := by
  have reached : Inv program s := inv.after_run run
  have progress := reached.progress c
  have enters := entered_of_run run inv idle
  rw [returned] at progress enters
  rw [callbackMap_of_alone run inv idle alone, returned,
    lacosAt_returned progress enters replied, executar_callbackMap _ resposta cliente c, before]

end Alone

end PahoClient
