import PahoClient.Client.Effects
import PahoClient.Dll.Wrapper

/-!
# The client over the wrapper

Every command of the client goes through a method of `MQTTDll`, and so does its
test of the connection.  All clients share one wrapper, so that the constructor
of another client may load the library at any time.
-/

namespace PahoClient

open PahoClient.Transition

/-! ## What the client gets from a method -/

/-- What a method returns when its function, if it is resolved, returns `ret`. -/
def MQTTDll.retorno (dll : MQTTDll) (funcao : Funcao) (ret : Int) : Int :=
  ((dll.metodo ⟨fun _ (_ : Unit) => ret, fun _ _ => none⟩ funcao ()).bind
    Efeito.retorno).getD ret

/-- `MQTTClient::conectado`, when the library knows the connection. -/
def MQTTDll.conectado (dll : MQTTDll) (conectado : Bool) : Bool :=
  dll.retorno .isConnected (if conectado then 1 else 0) != 0

/-- The function that takes the command of an operation. -/
def Operation.comando : Operation → Funcao
  | conectar => .connect
  | subscribe _ => .subscribeMany
  | unsubscribe _ => .unsubscribeMany
  | desconectar => .disconnect

/-- The function that a statement of a call asks for a value that it tests. -/
def Operation.funcao (op : Operation) : Pc → Option Funcao
  | .setCallbacks => some .setCallbacks
  | .command => some op.comando
  | _ => none

/-- The value that a statement gets when the library returns `ret`. -/
def MQTTDll.valor (dll : MQTTDll) (op : Operation) (pc : Pc) (ret : Int) : Int :=
  match op.funcao pc with
  | some funcao => dll.retorno funcao ret
  | none => ret

/-! ## The system -/

/-- The wrapper and one client over it. -/
structure Montagem where
  dll : MQTTDll
  cliente : State

/-- The constructor of some client loads the library, or the client moves. -/
inductive PassoMontado where
  | load (procurada : Option Biblioteca)
  | cliente (label : Label)

/-- The steps that a library takes on its own. -/
def Label.daRede : Label → Bool
  | .arrive _ | .network _ => true
  | _ => false

/-- A step of the client: its calls see the library through the wrapper. -/
def clienteStep (program : Program) (dll : MQTTDll) (s : State) : Label → Option State
  | .call c ret =>
      (step program { s with conectado := dll.conectado s.conectado }
        (.call c (dll.valor (program.op c) (s.pc c) ret))).map fun t =>
          { t with conectado := s.conectado }
  | label => step program s label

/-- A library that is not there does nothing. -/
def montagemStep (program : Program) : Step Montagem PassoMontado
  | m, .load procurada => some { m with dll := (m.dll.load procurada).1 }
  | m, .cliente label =>
      if label.daRede && m.dll.hDll.isNone then none
      else (clienteStep program m.dll m.cliente label).map fun t => { m with cliente := t }

/-- A client before any library is loaded. -/
def Montagem.inicial : Montagem where
  dll := .new
  cliente := initial (fun _ => none) false

/-! ## The wrapper -/

section Wrapper

variable {dll : MQTTDll} {funcao : Funcao}

theorem MQTTDll.retorno_of_none (missing : dll.fptr funcao = none) {value : Int}
    (fails : funcao.falha = some value) (ret : Int) : dll.retorno funcao ret = value := by
  rw [retorno, metodo_eq, missing, fails]
  rfl

/-- A value that is not the failure comes from the library. -/
theorem MQTTDll.isSome_of_retorno {ret value : Int} (fails : funcao.falha = some value)
    (other : dll.retorno funcao ret ≠ value) : (dll.fptr funcao).isSome = true := by
  cases found : dll.fptr funcao with
  | none => exact absurd (retorno_of_none found fails ret) other
  | some endereco => rfl

/-- The client sees a connection only with the help of the library. -/
theorem MQTTDll.isSome_of_conectado {conectado : Bool} (seen : dll.conectado conectado = true) :
    (dll.fptr .isConnected).isSome = true := by
  have value : dll.retorno .isConnected (if conectado then 1 else 0) ≠ 0 := by
    simpa [MQTTDll.conectado] using seen
  exact isSome_of_retorno rfl value

/-- Only the library accepts a command. -/
theorem isSome_of_comando {op : Operation} {ret : Int}
    (accepted : dll.valor op .command ret = MQTTASYNC_SUCCESS) :
    (dll.fptr op.comando).isSome = true := by
  have value : dll.retorno op.comando ret ≠ MQTTASYNC_FAILURE := by
    rw [show dll.retorno op.comando ret = MQTTASYNC_SUCCESS from accepted]
    decide
  exact MQTTDll.isSome_of_retorno (by cases op <;> rfl) value

theorem isSome_of_setCallbacks {op : Operation} {ret : Int}
    (accepted : dll.valor op .setCallbacks ret = MQTTASYNC_SUCCESS) :
    (dll.fptr .setCallbacks).isSome = true := by
  have value : dll.retorno .setCallbacks ret ≠ MQTTASYNC_FAILURE := by
    rw [show dll.retorno .setCallbacks ret = MQTTASYNC_SUCCESS from accepted]
    decide
  exact MQTTDll.isSome_of_retorno rfl value

/-- A load resolves pointers and never takes one back. -/
theorem isSome_load {biblioteca : Option Biblioteca}
    (found : ((MQTTDll.de biblioteca).fptr funcao).isSome = true)
    (procurada : Option Biblioteca) :
    (((MQTTDll.de biblioteca).load procurada).1.fptr funcao).isSome = true := by
  cases biblioteca with
  | none => cases found
  | some biblioteca => exact found

theorem load_de (biblioteca procurada : Option Biblioteca) :
    ∃ encontrada, ((MQTTDll.de biblioteca).load procurada).1 = MQTTDll.de encontrada := by
  cases biblioteca with
  | some biblioteca => exact ⟨some biblioteca, rfl⟩
  | none =>
      cases procurada with
      | none => exact ⟨none, rfl⟩
      | some procurada => exact ⟨some procurada, rfl⟩

end Wrapper

/-! ## Steps -/

section Steps

variable {program : Program} {dll : MQTTDll} {s t : State} {label : Label}

/-- A step of the client over the wrapper is one of its own steps, in which a
call sees the connection and the values that the wrapper gives it. -/
theorem clienteStep_cases (executed : clienteStep program dll s label = some t) :
    (∃ c ret, label = .call c ret ∧ ∃ t',
      step program { s with conectado := dll.conectado s.conectado }
        (.call c (dll.valor (program.op c) (s.pc c) ret)) = some t' ∧
      t = { t' with conectado := s.conectado }) ∨
    (∀ c ret, label ≠ .call c ret) ∧ step program s label = some t := by
  cases label with
  | call c ret =>
      obtain ⟨t', inner, rfl⟩ := Option.map_eq_some_iff.mp executed
      exact Or.inl ⟨c, ret, rfl, t', inner, rfl⟩
  | _ => exact Or.inr ⟨by simp, executed⟩

/-- The steps that move the command of a call. -/
theorem clienteStep_request (executed : clienteStep program dll s label = some t) (c : CallId) :
    t.request c = s.request c ∨
      (∃ ret, label = .call c ret ∧ s.pc c = .command ∧
        t.request c = if dll.valor (program.op c) .command ret = MQTTASYNC_SUCCESS then .pending
          else .rejected (dll.valor (program.op c) .command ret)) ∨
      (s.request c).accepted = true ∧ (t.request c).accepted = true ∧ t.pc = s.pc := by
  rcases clienteStep_cases executed with ⟨d, ret, rfl, t', inner, rfl⟩ | ⟨notCall, plain⟩
  · rcases request_cases inner c with same | ⟨value, labelEq, pc, issued⟩ | ⟨_, labelEq, _⟩ |
      ⟨_, labelEq, _⟩ | ⟨_, _, labelEq, _⟩
    · exact Or.inl same
    · simp only [Label.call.injEq] at labelEq
      obtain ⟨rfl, rfl⟩ := labelEq
      have command : s.pc d = .command := pc
      rw [command] at issued
      exact Or.inr (Or.inl ⟨ret, rfl, command, issued⟩)
    all_goals cases labelEq
  · rcases request_cases plain c with same | ⟨value, rfl, _⟩ | ⟨_, rfl, pending, _, ready⟩ |
      ⟨_, rfl, ready, running⟩ | ⟨_, pc, rfl, running, next⟩
    · exact Or.inl same
    · exact absurd rfl (notCall c value)
    · cases step_effect plain
      exact Or.inr (Or.inr ⟨by rw [pending]; rfl, by rw [ready]; rfl, rfl⟩)
    · cases step_effect plain
      exact Or.inr (Or.inr ⟨by rw [ready]; rfl, by rw [running]; rfl, rfl⟩)
    · obtain ⟨_, _, _, _, samePc⟩ := request_of_handler plain
      exact Or.inr (Or.inr ⟨by rw [running]; rfl, by rw [next]; cases pc <;> rfl, samePc⟩)

/-- The steps that move a call. -/
theorem clienteStep_pc (executed : clienteStep program dll s label = some t) (c : CallId) :
    t.pc c = s.pc c ∨
      (label = .start c ∧ s.pc c = .idle ∧ t.pc c = entry (program.op c)) ∨
      ∃ ret, label = .call c ret ∧
        t.pc c = callNext (program.op c) c (dll.valor (program.op c) (s.pc c) ret)
          { s with conectado := dll.conectado s.conectado } := by
  rcases clienteStep_cases executed with ⟨d, ret, rfl, t', inner, rfl⟩ | ⟨notCall, plain⟩
  · rcases pc_cases inner c with same | ⟨labelEq, _⟩ | ⟨value, labelEq, _, next⟩
    · exact Or.inl same
    · cases labelEq
    · simp only [Label.call.injEq] at labelEq
      obtain ⟨rfl, rfl⟩ := labelEq
      exact Or.inr (Or.inr ⟨ret, rfl, next⟩)
  · rcases pc_cases plain c with same | started | ⟨value, labelEq, _⟩
    · exact Or.inl same
    · exact Or.inr (Or.inl started)
    · exact absurd labelEq (notCall c value)

theorem Inv.conectado (inv : Inv program s) (conectado : Bool) :
    Inv program { s with conectado := conectado } := by
  have changes : PahoClient.step program s (.network conectado) =
      some { s with conectado := conectado } := rfl
  exact inv.step changes

theorem Inv.clienteStep (inv : Inv program s)
    (executed : PahoClient.clienteStep program dll s label = some t) : Inv program t := by
  rcases clienteStep_cases executed with ⟨c, ret, _, t', inner, rfl⟩ | ⟨_, plain⟩
  · exact ((inv.conectado _).step inner).conectado _
  · exact inv.step plain

end Steps

end PahoClient
