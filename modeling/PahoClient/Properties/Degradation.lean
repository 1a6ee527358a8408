import PahoClient.Dll.Client
import PahoClient.Properties.Progress
import PahoClient.Properties.Provenance
import PahoClient.Properties.Setup

/-!
# A client with a part of the library, or without it

A method whose function is not resolved returns its failure without a call.  A
client that runs into it fails at once: it waits for nothing that cannot come,
and leaves nothing in the table.
-/

namespace PahoClient

open PahoClient.Store
open PahoClient.Transition

/-- A connect or disconnect call has found the client connected. -/
def viuConexao : Operation → Pc → Request → Bool
  | .conectar, .unlockConexao true, request | .conectar, .returned true, request =>
      decide (request = .unissued)
  | .desconectar, .idle, _ | .desconectar, .testConectado, _ => false
  | .desconectar, .returned true, request => !decide (request = .unissued)
  | .desconectar, _, _ => true
  | _, _, _ => false

/-- What the state of the client says about the functions that are resolved. -/
structure Resolvido (program : Program) (m : Montagem) : Prop where
  inv : Inv program m.cliente
  entrada : ∀ c, entered (program.op c) (m.cliente.pc c) (m.cliente.request c)
  dll : ∃ biblioteca, m.dll = MQTTDll.de biblioteca
  primeira : m.cliente.primeiraTentativa = false → (m.dll.fptr .setCallbacks).isSome = true
  preparado : ∀ c, program.op c = .conectar →
    m.cliente.pc c = .command ∨ m.cliente.request c ≠ .unissued →
      (m.dll.fptr .setCallbacks).isSome = true
  aceito : ∀ c, (m.cliente.request c).accepted = true →
    (m.dll.fptr (program.op c).comando).isSome = true
  visto : ∀ c, viuConexao (program.op c) (m.cliente.pc c) (m.cliente.request c) = true →
    (m.dll.fptr .isConnected).isSome = true

section Steps

variable {program : Program} {dll : MQTTDll} {s t : State} {label : Label}

/-! ## The functions that a call needs -/

theorem Resolvido.entrada_step (resolvido : Resolvido program ⟨dll, s⟩)
    (executed : clienteStep program dll s label = some t) (c : CallId) :
    entered (program.op c) (t.pc c) (t.request c) := by
  rcases clienteStep_cases executed with ⟨d, ret, rfl, t', inner, rfl⟩ | ⟨_, plain⟩
  · have seen := resolvido.inv.conectado (dll.conectado s.conectado)
    have entering := entered_step (t := t') seen inner (resolvido.entrada c)
    exact entering
  · exact entered_step resolvido.inv plain (resolvido.entrada c)

theorem Resolvido.aceito_step (resolvido : Resolvido program ⟨dll, s⟩)
    (executed : clienteStep program dll s label = some t) (c : CallId)
    (accepted : (t.request c).accepted = true) :
    (dll.fptr (program.op c).comando).isSome = true := by
  rcases clienteStep_request executed c with same | ⟨ret, _, _, issued⟩ | ⟨before, _⟩
  · rw [same] at accepted
    exact resolvido.aceito c accepted
  · rw [issued] at accepted
    split at accepted
    · rename_i success
      exact isSome_of_comando success
    · cases accepted
  · exact resolvido.aceito c before

theorem Resolvido.primeira_step (resolvido : Resolvido program ⟨dll, s⟩)
    (executed : clienteStep program dll s label = some t)
    (cleared : t.primeiraTentativa = false) : (dll.fptr .setCallbacks).isSome = true := by
  rcases clienteStep_cases executed with ⟨d, ret, rfl, t', inner, rfl⟩ | ⟨notCall, plain⟩
  · rcases primeiraTentativa_step inner with ⟨same, _⟩ | ⟨_, c, _, labelEq, pc⟩
    · exact resolvido.primeira (same.symm.trans cleared)
    · simp only [Label.call.injEq] at labelEq
      obtain ⟨rfl, success⟩ := labelEq
      rw [show s.pc d = .setCallbacks from pc] at success
      exact isSome_of_setCallbacks success
  · rcases primeiraTentativa_step plain with ⟨same, _⟩ | ⟨_, c, _, labelEq, _⟩
    · exact resolvido.primeira (same.symm.trans cleared)
    · exact absurd labelEq (notCall c _)

/-- A connect call comes to its command when the callbacks are set, or have just
been set. -/
theorem callNext_conectar_command {c : CallId} {ret : Int}
    (next : callNext .conectar c ret s = .command) :
    s.primeiraTentativa = false ∨ s.pc c = .setCallbacks ∧ ret = MQTTASYNC_SUCCESS ∨
      s.pc c = .command := by
  cases pc : s.pc c with
  | testConectado =>
      left
      simp only [callNext, pc] at next
      cases connected : s.conectado <;> cases first : s.primeiraTentativa <;>
        simp_all
  | setCallbacks =>
      simp only [callNext, pc] at next
      split at next
      · exact Or.inr (Or.inl ⟨rfl, by assumption⟩)
      · cases next
  | command => exact Or.inr (Or.inr rfl)
  | waitTest =>
      simp only [callNext, pc, waitNext] at next
      split at next <;> cases next
  | _ =>
      simp only [callNext, pc, waitNext] at next
      cases next

theorem Resolvido.preparado_step (resolvido : Resolvido program ⟨dll, s⟩)
    (executed : clienteStep program dll s label = some t) (c : CallId)
    (op : program.op c = .conectar) (ready : t.pc c = .command ∨ t.request c ≠ .unissued) :
    (dll.fptr .setCallbacks).isSome = true := by
  have before : s.pc c = .command ∨ s.request c ≠ .unissued →
      (dll.fptr .setCallbacks).isSome = true := resolvido.preparado c op
  rcases ready with command | issued
  · rcases clienteStep_pc executed c with same | ⟨_, _, entered⟩ | ⟨ret, _, next⟩
    · exact before (Or.inl (same.symm.trans command))
    · rw [entered, op] at command
      cases command
    · rw [next, op] at command
      rcases callNext_conectar_command command with first | ⟨setting, success⟩ | still
      · exact resolvido.primeira first
      · rw [show s.pc c = .setCallbacks from setting] at success
        exact isSome_of_setCallbacks success
      · exact before (Or.inl still)
  · rcases clienteStep_request executed c with same | ⟨_, _, pc, _⟩ | ⟨accepted, _⟩
    · exact before (Or.inr (same ▸ issued))
    · exact before (Or.inl pc)
    · refine before (Or.inr ?_)
      intro unissued
      rw [unissued] at accepted
      cases accepted

theorem viuConexao_congr {op : Operation} {pc : Pc} {first second : Request}
    (same : first = .unissued ↔ second = .unissued) :
    viuConexao op pc first = viuConexao op pc second := by
  unfold viuConexao
  split <;> simp [same]

/-- A call finds the client connected when it tests the connection. -/
theorem viuConexao_callNext {op : Operation} {c : CallId} {ret : Int} {request : Request}
    (known : progress op (s.pc c) (s.request c))
    (kept : s.pc c ≠ .command → request = s.request c)
    (seen : viuConexao op (callNext op c ret s) request = true) :
    viuConexao op (s.pc c) (s.request c) = true ∨ s.conectado = true := by
  cases op with
  | subscribe | unsubscribe => simp [viuConexao] at seen
  | conectar =>
      cases pc : s.pc c with
      | testConectado =>
          right
          simp only [callNext, pc] at seen
          cases connected : s.conectado with
          | true => rfl
          | false =>
              cases first : s.primeiraTentativa <;>
                simp [connected, first, viuConexao] at seen
      | unlockConexao value =>
          left
          rw [kept (by simp [pc])] at seen
          simp only [callNext, pc] at seen
          cases value <;> exact seen
      | returned value =>
          left
          rw [kept (by simp [pc])] at seen
          simpa only [callNext, pc, waitNext] using seen
      | waitUnlock value =>
          rw [pc] at known
          obtain ⟨res, done, _⟩ := known
          rw [kept (by simp [pc]), done] at seen
          cases value <;> simp [callNext, pc, waitNext, viuConexao] at seen
      | _ =>
          simp only [callNext, pc, waitNext] at seen
          try split at seen
          all_goals simp [viuConexao] at seen
  | desconectar =>
      cases pc : s.pc c with
      | idle => simp [callNext, pc, waitNext, viuConexao] at seen
      | testConectado =>
          rw [pc] at known
          right
          rw [kept (by simp [pc]), show s.request c = .unissued from known] at seen
          cases connected : s.conectado with
          | true => rfl
          | false => simp [callNext, pc, connected, viuConexao] at seen
      | returned value =>
          left
          rw [kept (by simp [pc])] at seen
          simpa only [callNext, pc, waitNext] using seen
      | _ => exact Or.inl rfl

theorem Resolvido.visto_step (resolvido : Resolvido program ⟨dll, s⟩)
    (executed : clienteStep program dll s label = some t) (c : CallId)
    (seen : viuConexao (program.op c) (t.pc c) (t.request c) = true) :
    (dll.fptr .isConnected).isSome = true := by
  have before : viuConexao (program.op c) (s.pc c) (s.request c) = true →
      (dll.fptr .isConnected).isSome = true := resolvido.visto c
  have moved : ∀ ret, t.pc c = callNext (program.op c) c ret
      { s with conectado := dll.conectado s.conectado } →
      (s.pc c ≠ .command → t.request c = s.request c) →
      (dll.fptr .isConnected).isSome = true := by
    intro ret next kept
    rw [next] at seen
    have tested := viuConexao_callNext (s := { s with conectado := dll.conectado s.conectado })
      (resolvido.inv.progress c) kept seen
    exact tested.elim before MQTTDll.isSome_of_conectado
  rcases clienteStep_request executed c with same | ⟨_, _, command, _⟩ |
    ⟨accepted, stillAccepted, samePc⟩
  · rcases clienteStep_pc executed c with samePc | ⟨_, _, entered⟩ | ⟨ret, _, next⟩
    · rw [samePc, same] at seen
      exact before seen
    · rw [entered] at seen
      cases op : program.op c <;> rw [op] at seen <;> simp [entry, viuConexao] at seen
    · exact moved _ next fun _ => same
  · rcases clienteStep_pc executed c with samePc | ⟨_, idle, _⟩ | ⟨ret, _, next⟩
    · rw [samePc, command] at seen
      rw [command] at before
      refine before ?_
      cases op : program.op c <;> rw [op] at seen <;> exact seen
    · rw [command] at idle
      cases idle
    · exact moved _ next fun notCommand => absurd command notCommand
  · rw [samePc] at seen
    refine before ((viuConexao_congr ?_).trans seen)
    constructor <;> intro unissued
    · rw [unissued] at accepted
      cases accepted
    · rw [unissued] at stillAccepted
      cases stillAccepted

theorem resolvido_inicial (program : Program) : Resolvido program Montagem.inicial where
  inv := inv_initial program _ _
  entrada c := by cases op : program.op c <;> trivial
  dll := ⟨none, rfl⟩
  primeira cleared := by cases cleared
  preparado c _ ready := by
    rcases ready with command | issued
    · cases command
    · exact absurd rfl issued
  aceito _ accepted := by cases accepted
  visto c seen := by
    cases op : program.op c <;> rw [op] at seen <;> cases seen

theorem Resolvido.step {m m' : Montagem} {passo : PassoMontado} (resolvido : Resolvido program m)
    (executed : montagemStep program m passo = some m') : Resolvido program m' := by
  cases passo with
  | load procurada =>
      cases executed
      obtain ⟨biblioteca, known⟩ := resolvido.dll
      have grows : ∀ funcao, (m.dll.fptr funcao).isSome = true →
          ((m.dll.load procurada).1.fptr funcao).isSome = true := by
        rw [known]
        exact fun funcao found => isSome_load found procurada
      exact ⟨resolvido.inv, resolvido.entrada, by rw [known]; exact load_de biblioteca procurada,
        fun cleared => grows _ (resolvido.primeira cleared),
        fun c op ready => grows _ (resolvido.preparado c op ready),
        fun c accepted => grows _ (resolvido.aceito c accepted),
        fun c seen => grows _ (resolvido.visto c seen)⟩
  | cliente label =>
      simp only [montagemStep] at executed
      split at executed
      · cases executed
      · obtain ⟨t, moved, rfl⟩ := Option.map_eq_some_iff.mp executed
        exact ⟨resolvido.inv.clienteStep moved, resolvido.entrada_step moved, resolvido.dll,
          resolvido.primeira_step moved, resolvido.preparado_step moved,
          resolvido.aceito_step moved, resolvido.visto_step moved⟩

theorem Resolvido.of_run {history : List (Event Montagem PassoMontado)} {m : Montagem}
    (run : Run (montagemStep program) Montagem.inicial history m) : Resolvido program m :=
  run.invariant (Resolvido program) (resolvido_inicial program)
    fun _ _ _ resolvido executed => resolvido.step executed

/-- A call that returns `true` has had its command accepted or has found the
connection as it wants it. -/
theorem Resolvido.accepted_of_returned {m : Montagem} (resolvido : Resolvido program m)
    {c : CallId} (returned : m.cliente.pc c = .returned true) :
    (m.cliente.request c).accepted = true ∨
      m.cliente.request c = .unissued ∧ (program.op c).usesConexao = true := by
  have known := resolvido.inv.progress c
  have enters := resolvido.entrada c
  rw [returned] at known enters
  rcases known with unissued | ⟨_, _, impossible⟩ | ⟨res, done, _⟩
  · refine Or.inr ⟨unissued, ?_⟩
    cases op : program.op c with
    | conectar | desconectar => rfl
    | subscribe args => simp [op, unissued, entered] at enters
    | unsubscribe topicos => simp [op, unissued, entered] at enters
  · cases impossible
  · rw [done]
    exact Or.inl rfl

end Steps

/-- The topics of the call are in the table until it takes them out again. -/
def Pc.registrado : Pc → Bool
  | release .inserir | command | acquire .desfazer | loop .desfazer => true
  | _ => false

theorem inProgress_of_registrado {pc : Pc} (registered : pc.registrado = true) :
    pc.inProgress = true := by
  cases pc with
  | idle | returned => cases registered
  | _ => rfl

/-- Every entry is under a topic of a subscribe call that will take it out
again. -/
def TabelaPassageira (program : Program) (s : State) : Prop :=
  ∀ topico callback, s.callbackMap topico = some callback →
    ∃ c args, program.op c = .subscribe args ∧ topico ∈ args.topicos ∧
      (s.pc c).registrado = true

/-- What holds as long as no library has been found. -/
structure Ausente (program : Program) (s : State) : Prop where
  locks : LockInv program s
  tabela : TabelaPassageira program s
  calado : ∀ k, (s.delivery k).pc = .idle

section Absent

variable {program : Program} {s t : State} {label : Label}

theorem ausente_inicial (program : Program) : Ausente program Montagem.inicial.cliente where
  locks := lockInv_initial program _ _
  tabela _ _ present := by cases present
  calado _ := rfl

theorem serialStep_of_step (executed : step program s label = some t)
    (outside : label.entersCallback = false) : serialStep program s label = some t := by
  simp only [serialStep, outside, Bool.false_and]
  exact executed

theorem LockInv.conectado (inv : LockInv program s) (conectado : Bool) :
    LockInv program { s with conectado := conectado } := by
  have changes : serialStep program s (.network conectado) =
      some { s with conectado := conectado } := rfl
  exact inv.step changes

/-- Without the library no command is accepted. -/
theorem Resolvido.not_accepted {m : Montagem} (resolvido : Resolvido program m)
    (absent : m.dll = .new) (c : CallId) : (m.cliente.request c).accepted = false := by
  by_contra accepted
  have found := resolvido.aceito c (eq_true_of_ne_false accepted)
  rw [absent] at found
  cases found

/-- A call waits for accepted commands only. -/
theorem Resolvido.not_inWait {m : Montagem} (resolvido : Resolvido program m) {c : CallId}
    (refused : (m.cliente.request c).accepted = false) : (m.cliente.pc c).inWait = false := by
  have known := resolvido.inv.progress c
  cases pc : m.cliente.pc c with
  | waitLock | waitTest | waiting =>
      rw [pc] at known
      have accepted : (m.cliente.request c).accepted = true := known
      rw [refused] at accepted
      cases accepted
  | _ => rfl

/-- Without the library no call finds the client connected. -/
theorem Resolvido.viuConexao_of_new {m : Montagem} (resolvido : Resolvido program m)
    (absent : m.dll = .new) (c : CallId) :
    viuConexao (program.op c) (m.cliente.pc c) (m.cliente.request c) = false := by
  by_contra seen
  have found := resolvido.visto c (eq_true_of_ne_false seen)
  rw [absent] at found
  cases found

/-- Without the library only disconnect calls succeed, and they do. -/
theorem Resolvido.value_of_new {m : Montagem} (resolvido : Resolvido program m)
    (absent : m.dll = .new) {c : CallId} {value : Bool}
    (returned : m.cliente.pc c = .returned value) :
    value = true ↔ program.op c = .desconectar := by
  have unseen := resolvido.viuConexao_of_new absent c
  constructor
  · rintro rfl
    rcases resolvido.accepted_of_returned returned with accepted | ⟨unissued, uses⟩
    · rw [resolvido.not_accepted absent c] at accepted
      cases accepted
    · cases op : program.op c with
      | desconectar => rfl
      | conectar => simp [op, returned, unissued, viuConexao] at unseen
      | subscribe | unsubscribe =>
          rw [op] at uses
          cases uses
  · intro op
    cases value with
    | true => rfl
    | false =>
        rw [op, returned] at unseen
        cases unseen

/-- Only calls move the client when the library is not there. -/
theorem Ausente.label_cases (ausente : Ausente program s) (resolvido : Resolvido program ⟨.new, s⟩)
    (executed : step program s label = some t) (own : label.daRede = false) :
    (∃ c, label = .start c) ∨ (∃ c ret, label = .call c ret) ∨ ∃ c, label = .wake c := by
  cases label with
  | start c => exact Or.inl ⟨c, rfl⟩
  | call c ret => exact Or.inr (Or.inl ⟨c, ret, rfl⟩)
  | wake c => exact Or.inr (Or.inr ⟨c, rfl⟩)
  | arrive | network => cases own
  | complete c res =>
      have refused : (s.request c).accepted = false := resolvido.not_accepted rfl c
      cases step_effect executed with
      | complete pending =>
          rw [pending] at refused
          cases refused
  | deliver c =>
      have refused : (s.request c).accepted = false := resolvido.not_accepted rfl c
      cases step_effect executed with
      | deliver ready =>
          rw [ready] at refused
          cases refused
  | handler c =>
      have refused : (s.request c).accepted = false := resolvido.not_accepted rfl c
      obtain ⟨_, _, running, _⟩ := request_of_handler executed
      rw [running] at refused
      cases refused
  | message k ret =>
      simp [step, Connect.mensagemRecebida, ausente.calado k] at executed

/-- A subscribe call whose command is refused goes on to its rollback. -/
theorem registrado_callNext {c : CallId} {ret : Int} {args : Subscribe.Args}
    (registered : (s.pc c).registrado = true)
    (refused : s.pc c = .command → ret ≠ MQTTASYNC_SUCCESS)
    (beforeRollback : s.pc c ≠ .loop .desfazer) :
    (callNext (.subscribe args) c ret s).registrado = true := by
  cases pc : s.pc c with
  | command => simp [callNext, pc, refused pc, Pc.registrado]
  | release laco | acquire laco | loop laco =>
      rw [pc] at registered beforeRollback
      cases laco <;> simp_all [callNext, Pc.registrado]
  | _ =>
      rw [pc] at registered
      cases registered

/-- As long as commands are refused, the entries of the table are passing. -/
theorem TabelaPassageira.call (tabela : TabelaPassageira program s) {c : CallId} {ret : Int}
    (executed : PahoClient.step program s (.call c ret) = some t)
    (refused : s.pc c = .command → ret ≠ MQTTASYNC_SUCCESS) : TabelaPassageira program t := by
  intro topico callback present
  have newest := @entry_step program topico callback ⟨s, .call c ret, t⟩ executed
  rcases newest.mp present with ⟨before, kept⟩ | ⟨_, d, args, op, loops, i, place, _⟩
  · obtain ⟨d, args, op, named, registered⟩ := tabela topico callback before
    refine ⟨d, args, op, named, ?_⟩
    rcases pc_cases executed d with same | ⟨labelEq, _⟩ | ⟨value, labelEq, _, next⟩
    · rw [same]
      exact registered
    · cases labelEq
    · simp only [Label.call.injEq] at labelEq
      obtain ⟨rfl, rfl⟩ := labelEq
      rw [next, op]
      refine registrado_callNext registered refused ?_
      intro rollback
      refine kept c ⟨Or.inl ?_, by rw [op]; exact named⟩
      simp [lacoOf, rollback]
  · rcases label_of_lacoOf loops with ⟨value, labelEq, pc⟩ | ⟨_, impossible, _⟩
    · simp only [Label.call.injEq] at labelEq
      obtain ⟨rfl, rfl⟩ := labelEq
      refine ⟨c, args, op, List.mem_of_getElem? place, ?_⟩
      rw [pc_of_call executed, op]
      simp only [callNext, show s.pc c = .loop .inserir from pc]
      rfl
    · cases impossible

/-- When no call is in progress nothing is left of passing entries. -/
theorem TabelaPassageira.empty (tabela : TabelaPassageira program s)
    (resting : ∀ c, (s.pc c).inProgress = false) : s.callbackMap = fun _ => none := by
  funext topico
  rw [Option.eq_none_iff_forall_ne_some]
  intro callback present
  obtain ⟨c, args, _, _, registered⟩ := tabela topico callback present
  have idle := resting c
  rw [inProgress_of_registrado registered] at idle
  cases idle

/-- Without the library a command is refused. -/
theorem valor_new_ne {op : Operation} (ret : Int) :
    MQTTDll.new.valor op .command ret ≠ MQTTASYNC_SUCCESS := by
  intro accepted
  have found := isSome_of_comando accepted
  cases found

theorem Ausente.step (ausente : Ausente program s) (resolvido : Resolvido program ⟨.new, s⟩)
    (executed : clienteStep program .new s label = some t) (own : label.daRede = false) :
    Ausente program t := by
  rcases clienteStep_cases executed with ⟨c, ret, rfl, t', inner, rfl⟩ | ⟨notCall, plain⟩
  · have locks := (ausente.locks.conectado (MQTTDll.new.conectado s.conectado)).step
      (serialStep_of_step inner rfl)
    have tabela : TabelaPassageira program
        { s with conectado := MQTTDll.new.conectado s.conectado } := ausente.tabela
    have after : TabelaPassageira program t' := by
      apply tabela.call inner
      intro command
      rw [show s.pc c = .command from command]
      exact valor_new_ne ret
    refine ⟨locks.conectado s.conectado, after, ?_⟩
    · intro k
      have kept := (despachar_effect inner).delivery
      exact (congrArg (fun delivery => (delivery k).pc) kept).trans (ausente.calado k)
  · rcases ausente.label_cases resolvido plain own with ⟨c, rfl⟩ | ⟨c, ret, rfl⟩ | ⟨c, rfl⟩
    · refine ⟨ausente.locks.step (serialStep_of_step plain rfl), ?_, ?_⟩
      · cases step_effect plain with
        | start idle =>
            intro topico callback present
            obtain ⟨d, args, op, named, registered⟩ := ausente.tabela topico callback present
            refine ⟨d, args, op, named, ?_⟩
            have other : d ≠ c := by
              rintro rfl
              rw [idle] at registered
              cases registered
            simpa [State.setPc, other] using registered
      · cases step_effect plain
        exact ausente.calado
    · exact absurd rfl (notCall c ret)
    · refine ⟨ausente.locks.step (serialStep_of_step plain rfl), ?_, ?_⟩
      · cases step_effect plain
        exact ausente.tabela
      · cases step_effect plain
        exact ausente.calado

/-- A wrapper that has no library has no pointers. -/
theorem Resolvido.dll_eq {m : Montagem} (resolvido : Resolvido program m)
    (absent : m.dll.hDll = none) : m.dll = .new := by
  obtain ⟨biblioteca, known⟩ := resolvido.dll
  rw [known] at absent ⊢
  cases biblioteca with
  | none => rfl
  | some biblioteca => cases absent

theorem ausente_of_run {history : List (Event Montagem PassoMontado)} {m : Montagem}
    (run : Run (montagemStep program) Montagem.inicial history m)
    (absent : m.dll.hDll = none) : Ausente program m.cliente := by
  induction run with
  | refl => exact ausente_inicial program
  | @tail history source target passo run executed ih =>
      have resolvido := Resolvido.of_run run
      cases passo with
      | load procurada =>
          cases executed
          apply ih
          cases found : source.dll.hDll with
          | none => rfl
          | some biblioteca =>
              have loaded : (source.dll.load procurada).1.hDll = none := absent
              simp [MQTTDll.load, found] at loaded
      | cliente label =>
          simp only [montagemStep] at executed
          split at executed
          · cases executed
          · rename_i permitted
            obtain ⟨t, moved, rfl⟩ := Option.map_eq_some_iff.mp executed
            have before : source.dll.hDll = none := absent
            have new := resolvido.dll_eq before
            have source_eq : source = ⟨.new, source.cliente⟩ := by rw [← new]
            rw [new] at moved
            rw [source_eq] at resolvido
            exact (ih before).step resolvido moved (by simpa [before] using permitted)

/-- Which statement of a call can be executed does not depend on the connection
and on the values that the library returns. -/
theorem despachar_isSome (op : Operation) (c : CallId) (ret other : Int) (conectado : Bool) :
    (despachar op c other { s with conectado := conectado }).isSome =
      (despachar op c ret s).isSome := by
  cases op with
  | conectar =>
      simp only [despachar, Connect.despachar, Contexto.esperar, lockConexao, goto, issue,
        unlockConexao]
      cases s.pc c <;> simp only [] <;> repeat' split
      all_goals rfl
  | desconectar =>
      simp only [despachar, Disconnect.despachar, Contexto.esperar, lockConexao, goto, issue,
        unlockConexao]
      cases s.pc c <;> simp only [] <;> repeat' split
      all_goals rfl
  | subscribe args =>
      simp only [despachar, Subscribe.despachar, Contexto.esperar, acquireMap, updateMap,
        releaseMap, goto, issue]
      cases s.pc c with
      | acquire laco => cases laco <;> simp
      | loop laco | release laco => cases laco <;> rfl
      | _ =>
          simp only []
          repeat' split
          all_goals rfl
  | unsubscribe topicos =>
      simp only [despachar, Unsubscribe.despachar, Contexto.esperar, acquireMap, updateMap,
        releaseMap, issue]
      cases s.pc c with
      | acquire laco => cases laco <;> simp
      | loop laco | release laco => cases laco <;> rfl
      | _ =>
          simp only []
          repeat' split
          all_goals rfl

/-- A call that the client could execute is also executed over the wrapper. -/
theorem montagemStep_call {m : Montagem} {c : CallId} {ret : Int}
    (executed : step program m.cliente (.call c ret) = some t) :
    ∃ m', montagemStep program m (.cliente (.call c ret)) = some m' := by
  have enabled : (despachar (program.op c) c ret m.cliente).isSome = true := by
    rw [show despachar (program.op c) c ret m.cliente = some t from executed]
    rfl
  rw [← despachar_isSome _ c ret (m.dll.valor (program.op c) (m.cliente.pc c) ret)
    (m.dll.conectado m.cliente.conectado)] at enabled
  obtain ⟨t', inner⟩ := Option.isSome_iff_exists.mp enabled
  have moved : clienteStep program m.dll m.cliente (.call c ret) =
      some { t' with conectado := m.cliente.conectado } := by
    simp only [clienteStep, step, inner, Option.map_some]
  exact ⟨_, by simp only [montagemStep, Label.daRede, Bool.false_and, moved]; rfl⟩

end Absent

/-- Without the library nothing waits and nothing stays behind: no command is
accepted and no message arrives, disconnect calls succeed and all others fail,
the table is empty when no call is in progress, and until then some call can go
on. -/
theorem client_without_library (program : Program)
    {history : List (Event Montagem PassoMontado)} {m : Montagem}
    (run : Run (montagemStep program) Montagem.inicial history m) (absent : m.dll.hDll = none) :
    (∀ c, (m.cliente.request c).accepted = false ∧ (m.cliente.pc c).inWait = false) ∧
    (∀ c value, m.cliente.pc c = .returned value →
      (value = true ↔ program.op c = .desconectar)) ∧
    (∀ k, (m.cliente.delivery k).pc = .idle) ∧
    ((∀ c, (m.cliente.pc c).inProgress = false) → m.cliente.callbackMap = fun _ => none) ∧
    ∀ c, (m.cliente.pc c).inProgress = true →
      ∃ d ret m', montagemStep program m (.cliente (.call d ret)) = some m' := by
  have resolvido := Resolvido.of_run run
  have new := resolvido.dll_eq absent
  have ausente := ausente_of_run run absent
  have refused := resolvido.not_accepted new
  refine ⟨fun c => ⟨refused c, resolvido.not_inWait (refused c)⟩, ?_, ausente.calado,
    ausente.tabela.empty, ?_⟩
  · intro c value returned
    exact resolvido.value_of_new new returned
  · intro c progress
    obtain ⟨label, t, advances, executed⟩ := ausente.locks.advances progress
    have plain := step_of_serialStep executed
    have own : label.daRede = false := by
      cases label with
      | arrive | network => cases advances
      | _ => rfl
    rw [show m = ⟨.new, m.cliente⟩ by rw [← new]] at resolvido
    rcases ausente.label_cases resolvido plain own with ⟨d, rfl⟩ | ⟨d, ret, rfl⟩ | ⟨d, rfl⟩
    · cases advances
    · obtain ⟨m', moved⟩ := montagemStep_call plain
      exact ⟨d, ret, m', moved⟩
    · cases advances

/-- A connection, a subscription and a disconnection. -/
def programaSemBiblioteca : Program where
  op c := if c = 0 then .conectar else if c = 1 then .subscribe (.ofPairs [([97], ⟨1⟩)])
    else .desconectar
  topico _ := []

/-- The subscription is rolled back while the connect call is still busy. -/
def usoSemBiblioteca : List Label :=
  [Label.start 0, .call 0 0, .start 1] ++ List.replicate 8 (Label.call 1 0) ++
    [Label.start 2, .call 2 0]

theorem client_without_library_called :
    ∃ history m, Run (montagemStep programaSemBiblioteca) Montagem.inicial history m ∧
      m.cliente.pc 0 = .testConectado ∧ m.cliente.pc 1 = .returned false ∧
      m.cliente.pc 2 = .returned true ∧
      ∃ d ret m', montagemStep programaSemBiblioteca m (.cliente (.call d ret)) = some m' := by
  obtain ⟨m, run, view⟩ := exists_run_of_execute (montagemStep programaSemBiblioteca)
    Montagem.inicial (.load none :: usoSemBiblioteca.map .cliente)
    (fun m => (m.cliente.pc 0, m.cliente.pc 1, m.cliente.pc 2, m.dll.hDll.isNone))
    (.testConectado, .returned false, .returned true, true) (by decide)
  simp only [Prod.mk.injEq] at view
  have absent : m.dll.hDll = none := Option.isNone_iff_eq_none.mp view.2.2.2
  obtain ⟨_, _, _, _, goes⟩ := client_without_library _ run absent
  exact ⟨_, m, run, view.1, view.2.1, view.2.2.1, goes 0 (by rw [view.1]; rfl)⟩

end PahoClient
