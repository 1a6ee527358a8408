import Mathlib.Data.List.Basic
import PahoClient.Client.Data

/-!
# The wrapper of the dynamic library

`MQTTDll` holds one pointer for each function of the library.  `load` resolves
them all at once, and each method calls through its own pointer.  A call through
a null pointer has no result.
-/

namespace PahoClient

/-- `MQTTASYNC_FAILURE`. -/
def MQTTASYNC_FAILURE : Int :=
  -1

/-- The address of a function of the library. -/
abbrev Endereco := Nat

/-- The functions that a method of the wrapper calls only if they are
resolved. -/
inductive Funcao where
  | create
  | destroy
  | connect
  | reconnect
  | isConnected
  | disconnect
  | setCallbacks
  | setConnected
  | subscribe
  | subscribeMany
  | unsubscribe
  | unsubscribeMany
  | sendMessage
  | freeMessage
  | free
  deriving DecidableEq, Repr

/-- The symbol that `load` looks up for a function. -/
def Funcao.simbolo : Funcao → String
  | create => "MQTTAsync_create"
  | destroy => "MQTTAsync_destroy"
  | connect => "MQTTAsync_connect"
  | reconnect => "MQTTAsync_reconnect"
  | isConnected => "MQTTAsync_isConnected"
  | disconnect => "MQTTAsync_disconnect"
  | setCallbacks => "MQTTAsync_setCallbacks"
  | setConnected => "MQTTAsync_setConnected"
  | subscribe => "MQTTAsync_subscribe"
  | subscribeMany => "MQTTAsync_subscribeMany"
  | unsubscribe => "MQTTAsync_unsubscribe"
  | unsubscribeMany => "MQTTAsync_unsubscribeMany"
  | sendMessage => "MQTTAsync_sendMessage"
  | freeMessage => "MQTTAsync_freeMessage"
  | free => "MQTTAsync_free"

/-- The symbol that `load` looks up for the error messages. -/
def simboloDeStrerror : String :=
  "MQTTAsync_strerror"

/-- A library on disk: the address that `GetProcAddress` finds for a symbol. -/
structure Biblioteca where
  getProcAddress : String → Option Endereco

/-- What the code of the library does: the value of a function that returns
`int`, and the message for an error code, which may be `NULL`. -/
structure Codigo (α : Type) where
  int : Endereco → α → Int
  mensagem : Endereco → Int → Option String

/-- A function that `fptr_strerror` points to. -/
inductive Mensageiro where
  | defaultErrMsg
  | biblioteca (endereco : Endereco)
  deriving DecidableEq, Repr

/-- `MQTTDll`.  A pointer or a handle that is `NULL` is `none`. -/
structure MQTTDll where
  fptr : Funcao → Option Endereco
  fptrStrerror : Option Mensageiro
  hDll : Option Biblioteca

/-- What a call of a method did: the function that ran, with its arguments, and
the value returned by a method of type `int`. -/
structure Efeito (α : Type) where
  invocada : Option (Endereco × α)
  retorno : Option Int
  deriving DecidableEq, Repr

namespace MQTTDll

/-- A wrapper that has not loaded the library. -/
def new : MQTTDll where
  fptr _ := none
  fptrStrerror := some .defaultErrMsg
  hDll := none

/-- `load`, when `LoadLibrary` finds the given library, or none. -/
def load (procurada : Option Biblioteca) (dll : MQTTDll) : MQTTDll × Bool :=
  if dll.hDll.isSome then (dll, true)
  else
    match procurada with
    | none => (dll, false)
    | some biblioteca =>
        ({ fptr := fun funcao => biblioteca.getProcAddress funcao.simbolo
           fptrStrerror := (biblioteca.getProcAddress simboloDeStrerror).map .biblioteca
           hDll := some biblioteca }, true)

/-! ## Methods -/

/-- A call through a pointer. -/
def chamar {π β : Type} (ponteiro : Option π) (corpo : π → β) : Option β :=
  match ponteiro with
  | some alvo => some (corpo alvo)
  | none => none

variable {α : Type} (dll : MQTTDll) (codigo : Codigo α)

/-- `fptr ? fptr(args) : padrao`. -/
def inteira (funcao : Funcao) (padrao : Int) (args : α) : Option (Efeito α) :=
  if (dll.fptr funcao).isSome then
    chamar (dll.fptr funcao) fun endereco =>
      ⟨some (endereco, args), some (codigo.int endereco args)⟩
  else some ⟨none, some padrao⟩

/-- `if (fptr) fptr(args)`. -/
def vazia (funcao : Funcao) (args : α) : Option (Efeito α) :=
  if (dll.fptr funcao).isSome then
    chamar (dll.fptr funcao) fun endereco => ⟨some (endereco, args), none⟩
  else some ⟨none, none⟩

def create (args : α) : Option (Efeito α) :=
  dll.inteira codigo .create MQTTASYNC_FAILURE args

def destroy (args : α) : Option (Efeito α) :=
  dll.vazia .destroy args

def connect (args : α) : Option (Efeito α) :=
  dll.inteira codigo .connect MQTTASYNC_FAILURE args

def reconnect (args : α) : Option (Efeito α) :=
  dll.inteira codigo .reconnect MQTTASYNC_FAILURE args

def isConnected (args : α) : Option (Efeito α) :=
  dll.inteira codigo .isConnected 0 args

def disconnect (args : α) : Option (Efeito α) :=
  dll.inteira codigo .disconnect MQTTASYNC_FAILURE args

def setCallbacks (args : α) : Option (Efeito α) :=
  dll.inteira codigo .setCallbacks MQTTASYNC_FAILURE args

def setConnected (args : α) : Option (Efeito α) :=
  dll.inteira codigo .setConnected MQTTASYNC_FAILURE args

def subscribe (args : α) : Option (Efeito α) :=
  dll.inteira codigo .subscribe MQTTASYNC_FAILURE args

def subscribeMany (args : α) : Option (Efeito α) :=
  dll.inteira codigo .subscribeMany MQTTASYNC_FAILURE args

def unsubscribe (args : α) : Option (Efeito α) :=
  dll.inteira codigo .unsubscribe MQTTASYNC_FAILURE args

def unsubscribeMany (args : α) : Option (Efeito α) :=
  dll.inteira codigo .unsubscribeMany MQTTASYNC_FAILURE args

def sendMessage (args : α) : Option (Efeito α) :=
  dll.inteira codigo .sendMessage MQTTASYNC_FAILURE args

def freeMessage (args : α) : Option (Efeito α) :=
  dll.vazia .freeMessage args

def free (args : α) : Option (Efeito α) :=
  dll.vazia .free args

/-- `strerror` calls through its pointer without a test. -/
def strerror (code : Int) : Option (Option String) :=
  chamar dll.fptrStrerror fun
    | .defaultErrMsg => some "MQTTDll: função não carregada."
    | .biblioteca endereco => codigo.mensagem endereco code

/-- The method that calls a function. -/
def metodo : Funcao → α → Option (Efeito α)
  | .create => dll.create codigo
  | .destroy => dll.destroy
  | .connect => dll.connect codigo
  | .reconnect => dll.reconnect codigo
  | .isConnected => dll.isConnected codigo
  | .disconnect => dll.disconnect codigo
  | .setCallbacks => dll.setCallbacks codigo
  | .setConnected => dll.setConnected codigo
  | .subscribe => dll.subscribe codigo
  | .subscribeMany => dll.subscribeMany codigo
  | .unsubscribe => dll.unsubscribe codigo
  | .unsubscribeMany => dll.unsubscribeMany codigo
  | .sendMessage => dll.sendMessage codigo
  | .freeMessage => dll.freeMessage
  | .free => dll.free

end MQTTDll

/-- What a method returns while its function is not resolved. -/
def Funcao.falha : Funcao → Option Int
  | destroy | freeMessage | free => none
  | isConnected => some 0
  | create | connect | reconnect | disconnect | setCallbacks | setConnected | subscribe
  | subscribeMany | unsubscribe | unsubscribeMany | sendMessage => some MQTTASYNC_FAILURE

namespace MQTTDll

variable {α : Type} (dll : MQTTDll) (codigo : Codigo α)

/-- A method passes its arguments to its function if the function is resolved,
and otherwise returns without a call. -/
theorem metodo_eq (funcao : Funcao) (args : α) :
    dll.metodo codigo funcao args =
      match dll.fptr funcao with
      | none => some ⟨none, funcao.falha⟩
      | some endereco =>
          some ⟨some (endereco, args), funcao.falha.map fun _ => codigo.int endereco args⟩ := by
  cases pointer : dll.fptr funcao with
  | none =>
      cases funcao <;>
        simp [metodo, create, destroy, connect, reconnect, isConnected, disconnect, setCallbacks,
          setConnected, subscribe, subscribeMany, unsubscribe, unsubscribeMany, sendMessage,
          freeMessage, free, inteira, vazia, pointer, Funcao.falha]
  | some endereco =>
      cases funcao <;>
        simp [metodo, create, destroy, connect, reconnect, isConnected, disconnect, setCallbacks,
          setConnected, subscribe, subscribeMany, unsubscribe, unsubscribeMany, sendMessage,
          freeMessage, free, inteira, vazia, chamar, pointer, Funcao.falha]

end MQTTDll

/-! ## Histories -/

/-- An action on the wrapper: a load, with the library that it finds, or a call of
a method. -/
inductive Acao (α : Type) where
  | load (procurada : Option Biblioteca)
  | metodo (funcao : Funcao) (args : α)
  | strerror (code : Int)

section Histories

variable {α : Type}

/-- The wrapper after one action: the methods do not change it. -/
def MQTTDll.apos (dll : MQTTDll) : Acao α → MQTTDll
  | .load procurada => (dll.load procurada).1
  | .metodo _ _ | .strerror _ => dll

/-- The wrapper after a history, oldest action first. -/
def MQTTDll.aposTodas (dll : MQTTDll) (acoes : List (Acao α)) : MQTTDll :=
  acoes.foldl MQTTDll.apos dll

/-- The library that the first successful load of a history finds. -/
def encontrada : List (Acao α) → Option Biblioteca
  | [] => none
  | .load (some biblioteca) :: _ => some biblioteca
  | _ :: acoes => encontrada acoes

/-- The wrapper of a library, or the one without a library. -/
def MQTTDll.de : Option Biblioteca → MQTTDll
  | none => .new
  | some biblioteca =>
      { fptr := fun funcao => biblioteca.getProcAddress funcao.simbolo
        fptrStrerror := (biblioteca.getProcAddress simboloDeStrerror).map .biblioteca
        hDll := some biblioteca }

theorem MQTTDll.load_de_some (biblioteca : Biblioteca) (procurada : Option Biblioteca) :
    (MQTTDll.de (some biblioteca)).load procurada = (MQTTDll.de (some biblioteca), true) :=
  rfl

theorem MQTTDll.aposTodas_de_some (biblioteca : Biblioteca) (acoes : List (Acao α)) :
    (MQTTDll.de (some biblioteca)).aposTodas acoes = MQTTDll.de (some biblioteca) := by
  induction acoes with
  | nil => rfl
  | cons acao acoes ih => cases acao <;> exact ih

/-- After any history the wrapper is the one of the library that the first
successful load found. -/
theorem MQTTDll.aposTodas_eq (acoes : List (Acao α)) :
    MQTTDll.new.aposTodas acoes = MQTTDll.de (encontrada acoes) := by
  induction acoes with
  | nil => rfl
  | cons acao acoes ih =>
      cases acao with
      | metodo | strerror => exact ih
      | load procurada =>
          cases procurada with
          | none => exact ih
          | some biblioteca => exact MQTTDll.aposTodas_de_some biblioteca acoes

end Histories

end PahoClient
