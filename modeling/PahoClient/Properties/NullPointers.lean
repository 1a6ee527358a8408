import PahoClient.Dll.Wrapper

/-!
# Calls through the pointers of the wrapper

Every method but `strerror` tests its pointer before it calls through it.
`strerror` relies on a default message that `load` replaces by whatever the
library exports.
-/

namespace PahoClient

variable {α : Type}

/-- What an action after a history must respect: no call through a null pointer,
the failure of a method without its function, a message for every error code,
and no change of the pointers after the library is found. -/
def AcaoSegura (codigo : Codigo α) (antes : List (Acao α)) : Acao α → Prop
  | .load procurada => encontrada antes ≠ none →
      ((MQTTDll.new.aposTodas antes).load procurada).1 = MQTTDll.new.aposTodas antes
  | .metodo funcao args => ∃ efeito,
      (MQTTDll.new.aposTodas antes).metodo codigo funcao args = some efeito ∧
        ((MQTTDll.new.aposTodas antes).fptr funcao = none → efeito = ⟨none, funcao.falha⟩)
  | .strerror code => ∃ mensagem,
      (MQTTDll.new.aposTodas antes).strerror codigo code = some (some mensagem)

/-- The library that a history has found, if any, exports `MQTTAsync_strerror`,
and the function has a message for the code. -/
def TemMensagem (codigo : Codigo α) (antes : List (Acao α)) (code : Int) : Prop :=
  ∀ biblioteca, encontrada antes = some biblioteca → ∃ endereco mensagem,
    biblioteca.getProcAddress simboloDeStrerror = some endereco ∧
      codigo.mensagem endereco code = some mensagem

theorem load_segura (codigo : Codigo α) (antes : List (Acao α)) (procurada : Option Biblioteca) :
    AcaoSegura codigo antes (.load procurada) := by
  intro found
  rw [MQTTDll.aposTodas_eq]
  cases biblioteca : encontrada antes with
  | none => exact absurd biblioteca found
  | some biblioteca => rw [MQTTDll.load_de_some]

theorem metodo_segura (codigo : Codigo α) (antes : List (Acao α)) (funcao : Funcao) (args : α) :
    AcaoSegura codigo antes (.metodo funcao args) := by
  rw [AcaoSegura, MQTTDll.metodo_eq]
  cases (MQTTDll.new.aposTodas antes).fptr funcao with
  | none => exact ⟨_, rfl, fun _ => rfl⟩
  | some endereco =>
      refine ⟨_, rfl, ?_⟩
      intro unresolved
      cases unresolved

theorem strerror_segura_iff (codigo : Codigo α) (antes : List (Acao α)) (code : Int) :
    AcaoSegura codigo antes (.strerror code) ↔ TemMensagem codigo antes code := by
  rw [AcaoSegura, TemMensagem, MQTTDll.aposTodas_eq]
  cases encontrada antes with
  | none => simp [MQTTDll.de, MQTTDll.new, MQTTDll.strerror, MQTTDll.chamar]
  | some biblioteca =>
      simp only [MQTTDll.de, MQTTDll.strerror, Option.some.injEq, forall_eq']
      cases biblioteca.getProcAddress simboloDeStrerror with
      | none => simp [MQTTDll.chamar]
      | some endereco => simp [MQTTDll.chamar]

/-- Over every history of loads and calls, the wrapper is safe at every action
exactly when every call of `strerror` that comes after the library is found has
a message of the library. -/
theorem wrapper_safe_iff (codigo : Codigo α) (acoes : List (Acao α)) :
    (∀ antes acao depois, acoes = antes ++ acao :: depois → AcaoSegura codigo antes acao) ↔
      ∀ antes code depois, acoes = antes ++ .strerror code :: depois →
        TemMensagem codigo antes code := by
  constructor
  · intro safe antes code depois split
    exact (strerror_segura_iff codigo antes code).mp (safe antes _ depois split)
  · intro messages antes acao depois split
    cases acao with
    | load procurada => exact load_segura codigo antes procurada
    | metodo funcao args => exact metodo_segura codigo antes funcao args
    | strerror code =>
        exact (strerror_segura_iff codigo antes code).mpr (messages antes code depois split)

/-- What the constructor of a client does with the wrapper.  A client that the
library does not create asks for the message of the error. -/
def MQTTClient.construtor (codigo : Codigo α) (procurada : Option Biblioteca) (args : α)
    (dll : MQTTDll) : List (Acao α) :=
  [.load procurada, .metodo .create args] ++
    match ((dll.load procurada).1.create codigo args).bind Efeito.retorno with
    | none => []
    | some ret => if ret = MQTTASYNC_SUCCESS then [] else [.strerror ret]

/-- A library without the expected symbols. -/
def bibliotecaVazia : Biblioteca where
  getProcAddress _ := none

/-- The construction of the first client over a library without symbols calls a
null pointer. -/
theorem wrapper_not_always_safe :
    ¬ ∀ (codigo : Codigo Unit) (acoes : List (Acao Unit)) (antes : List (Acao Unit))
      (acao : Acao Unit) (depois : List (Acao Unit)),
      acoes = antes ++ acao :: depois → AcaoSegura codigo antes acao := by
  intro safe
  let codigo : Codigo Unit := ⟨fun _ _ => 0, fun _ _ => none⟩
  obtain ⟨mensagem, called⟩ := safe codigo
    (MQTTClient.construtor codigo (some bibliotecaVazia) () .new)
    [.load (some bibliotecaVazia), .metodo .create ()] (.strerror MQTTASYNC_FAILURE) [] rfl
  cases called

end PahoClient
