import PahoClient.Client.Handlers
import PahoClient.Properties.Progress
import PahoClient.Transition.Simulation

/-!
# The program `mqtt-test`

One thread creates a client, connects, subscribes, unsubscribes from two of the
three topics and disconnects, a hundred times over, and leaves at the first call
that fails.  The destructor of the client runs on every way out.  The library
delivers messages and completions meanwhile, on its own thread.  The pauses of
one second between the calls have no effect of their own.
-/

namespace PahoClient.MqttTest

open PahoClient.Transition

/-! ## The callbacks -/

/-- `mensagemRecebida` of the program, by its address. -/
def mensagemRecebida : Callback :=
  ⟨1⟩

/-- `mensagemTruncada`. -/
def mensagemTruncada : Callback :=
  ⟨2⟩

/-- What arrives with each message: the storage of its topic and its payload. -/
structure Mensagens where
  topico : MsgId → List UInt8
  payload : MsgId → List UInt8

/-- The line that `mensagemRecebida` writes. -/
def mensagemRecebida.texto (topico payload : List UInt8) : StdString :=
  StdString.ofCString topico ++ (literal ": " ++ payload) ++ literal "\n"

/-- The line that `mensagemTruncada` writes: `payload.resize(payload.size()/2)`
drops the second half. -/
def mensagemTruncada.texto (topico payload : List UInt8) : StdString :=
  StdString.ofCString topico ++ (literal ": " ++ payload.take (payload.length / 2) ++ literal "\n")

/-- What the function at an address writes. -/
def texto (callback : Callback) (topico payload : List UInt8) : List StdString :=
  if callback = mensagemRecebida then [mensagemRecebida.texto topico payload]
  else if callback = mensagemTruncada then [mensagemTruncada.texto topico payload]
  else []

/-! ## The calls -/

def topic1 : StdString :=
  literal "esp32/topic1"

def topic2 : StdString :=
  literal "esp32/topic2"

def topic3 : StdString :=
  literal "esp32/topic3"

/-- The vectors passed to `subscribe`. -/
def inscricao : Subscribe.Args where
  topicos := [topic1, topic2, topic3]
  callbacks := [mensagemRecebida, mensagemTruncada, mensagemRecebida]
  covered := Nat.le_refl 3

/-- The vector passed to `unsubscribe`. -/
def desinscricao : List StdString :=
  [topic1, topic2]

/-- The rounds of the loop. -/
def rodadas : Nat :=
  100

/-- The calls in the order in which they are made, four to a round. -/
def programa (mensagens : Mensagens) : Program where
  op c :=
    match c % 4 with
    | 0 => .conectar
    | 1 => .subscribe inscricao
    | 2 => .unsubscribe desinscricao
    | _ => .desconectar
  topico := mensagens.topico

/-! ## The thread -/

/-- The statement of `main`, or of the destructor of its client, that the thread
is about to execute or whose call it is in.  After the loop the returned value is
known. -/
inductive Principal where
  | conectar (i : Nat)
  | subscribe (i : Nat)
  | unsubscribe (i : Nat)
  | desconectar (i : Nat)
  | destrutor (codigo : Int)
  | desconectando (codigo : Int)
  | destruir (codigo : Int)
  | fim (codigo : Int)
  deriving DecidableEq, Repr

/-- The call that a statement makes.  The one of the destructor follows those of
the loop. -/
def Principal.chamada : Principal → Option CallId
  | conectar i => some (4 * i)
  | subscribe i => some (4 * i + 1)
  | unsubscribe i => some (4 * i + 2)
  | desconectar i => some (4 * i + 3)
  | desconectando _ => some (4 * rodadas + 3)
  | destrutor _ | destruir _ | fim _ => none

/-- Where the thread goes on after a call has returned a value. -/
def Principal.apos : Principal → Bool → Principal
  | conectar i, true => subscribe i
  | subscribe i, true => unsubscribe i
  | unsubscribe i, true => desconectar i
  | conectar _, false | subscribe _, false | unsubscribe _, false => destrutor (-1)
  | desconectar i, _ => if i + 1 < rodadas then conectar (i + 1) else destrutor 0
  | desconectando codigo, _ => destruir codigo
  | p, _ => p

/-- What `main` writes to `std::cerr` when a call has failed. -/
def Principal.erro : Principal → Bool → List StdString
  | conectar _, false => [literal "Falha ao conectar ao broker.\n"]
  | subscribe _, false => [literal "Falha no subscribe\n"]
  | unsubscribe _, false => [literal "Falha no unsubscribe\n"]
  | _, _ => []

/-- The thread, the client, the lines that the two callbacks have written to
`std::cout` and those that `main` itself has written to `std::cerr`, newest first.
What the client writes to these streams is not among them. -/
structure Processo where
  principal : Principal
  client : State
  cout : List StdString
  cerr : List StdString

/-- The client has been constructed. -/
def inicio : Processo where
  principal := .conectar 0
  client := initial (fun _ => none) false
  cout := []
  cerr := []

/-- A step of the thread itself, or of a call, a handler, `mensagemRecebida` of
the client, or the library. -/
inductive Rotulo where
  | principal
  | cliente (label : Label)
  deriving DecidableEq, Repr

/-- The next statement of the thread outside its calls. -/
def proximo (mensagens : Mensagens) (p : Processo) : Option Processo :=
  match p.principal with
  | .destrutor codigo =>
      some { p with
        principal := if p.client.conectado then .desconectando codigo else .destruir codigo }
  | .destruir codigo => some { p with principal := .fim codigo }
  | .fim _ => none
  | statement =>
      match statement.chamada with
      | none => none
      | some c =>
          match p.client.pc c with
          | .idle =>
              (step (programa mensagens) p.client (.start c)).map fun client =>
                { p with client := client }
          | .returned res =>
              some { p with
                principal := statement.apos res
                cerr := statement.erro res ++ p.cerr }
          | _ => none

/-- The thread makes all calls, and both callbacks return 1. -/
def permitido : Label → Bool
  | .start _ => false
  | .message _ ret => ret == 1
  | _ => true

/-- What a step of the client lets a callback write. -/
def escreve (mensagens : Mensagens) (s : State) : Label → List StdString
  | .message m _ =>
      if (s.delivery m).pc = .inside then
        texto (s.delivery m).callback (mensagens.topico m) (mensagens.payload m)
      else []
  | _ => []

/-- One step of the process. -/
def processo (mensagens : Mensagens) : Step Processo Rotulo
  | p, .principal => proximo mensagens p
  | p, .cliente label =>
      if permitido label then
        (serialStep (programa mensagens) p.client label).map fun client =>
          { p with
            client := client
            cout := escreve mensagens p.client label ++ p.cout }
      else
        none

end PahoClient.MqttTest
