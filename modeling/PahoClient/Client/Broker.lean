import Mathlib.Data.Finset.Basic
import PahoClient.Client.Sequential

/-!
# The broker's session

The broker keeps a set of topic filters for the client.  Completed commands
change the set; the client sees the change only through the data of the
completions.  Calls that run one after another act on the client and on the
session together.
-/

namespace PahoClient

open PahoClient.Store

/-- The topics of a completed subscription whose returned code grants them. -/
def concedidos (args : Subscribe.Args) (data : SuccessData) : Finset StdString :=
  (((args.topicos.zip (Subscribe.qosDevolvidos args data)).filter fun entry =>
    entry.2 = 0 ∨ entry.2 = 1 ∨ entry.2 = 2).map Prod.fst).toFinset

/-- The session after a completed command. -/
def sessaoApos : Operation → Completion → Finset StdString → Finset StdString
  | .subscribe args, .onSuccess data, sessao => sessao ∪ concedidos args data
  | .unsubscribe topicos, .onSuccess _, sessao => sessao \ topicos.toFinset
  | .conectar, .onSuccess data, sessao => if data.sessionPresent = 0 then ∅ else sessao
  | _, _, sessao => sessao

/-- The call hands a command to the library. -/
def emite : Operation → Cliente → Bool
  | .conectar, cliente => !cliente.conectado
  | .subscribe args, _ => !args.topicos.isEmpty
  | .unsubscribe _, _ => true
  | .desconectar, cliente => cliente.conectado

/-- The client and the session that the broker keeps for it. -/
structure Mundo where
  cliente : Cliente
  sessao : Finset StdString

/-- A client that has never subscribed and a broker that does not know it. -/
def Mundo.vazio (conectado : Bool) : Mundo :=
  ⟨⟨fun _ => none, conectado⟩, ∅⟩

/-- What happens to a client that is used by one thread. -/
inductive Passo where
  | chamada (op : Operation) (resposta : Resposta)
  | perda

/-- The session after a call. -/
def sessaoAposChamada (op : Operation) (resposta : Resposta) (mundo : Mundo) :
    Finset StdString :=
  match resposta with
  | .rejeitada _ _ => mundo.sessao
  | .concluida res =>
      if emite op mundo.cliente then sessaoApos op res mundo.sessao else mundo.sessao

/-- The client and the session after a call or a loss of the connection. -/
def Passo.executar : Passo → Mundo → Mundo
  | chamada op resposta, mundo =>
      ⟨(PahoClient.executar op resposta mundo.cliente).1, sessaoAposChamada op resposta mundo⟩
  | perda, mundo => { mundo with cliente := { mundo.cliente with conectado := false } }

/-- A list of steps, oldest first. -/
def executarPassos (mundo : Mundo) (passos : List Passo) : Mundo :=
  passos.foldl (fun mundo passo => passo.executar mundo) mundo

theorem executarPassos_concat (mundo : Mundo) (passos : List Passo) (passo : Passo) :
    executarPassos mundo (passos ++ [passo]) = passo.executar (executarPassos mundo passos) := by
  simp [executarPassos]

/-- Granted topics were asked for. -/
theorem mem_topicos_of_concedidos {args : Subscribe.Args} {data : SuccessData}
    {topico : StdString} (granted : topico ∈ concedidos args data) : topico ∈ args.topicos := by
  simp only [concedidos, List.mem_toFinset, List.mem_map, List.mem_filter] at granted
  obtain ⟨entry, ⟨member, _⟩, rfl⟩ := granted
  exact (List.of_mem_zip member).1

/-! ## The table after a subscription -/

theorem callbackMap_of_concedida {args : Subscribe.Args} {res : Completion} {cliente : Cliente}
    (nonempty : args.topicos ≠ []) (granted : (Operation.subscribe args).outcome res = true) :
    (executar (.subscribe args) (.concluida res) cliente).1.callbackMap =
      cliente.callbackMap.insertAll (args.topicos.zip args.callbacks) := by
  simp [executar, Subscribe.executar, nonempty, granted, Subscribe.inserir]

/-- A subscription that is not granted in full leaves no entry for its topics. -/
theorem callbackMap_of_recusada {args : Subscribe.Args} {resposta : Resposta}
    {cliente : Cliente} {topico : StdString} (named : topico ∈ args.topicos)
    (refused : ∀ res, resposta = .concluida res →
      (Operation.subscribe args).outcome res = false) :
    (executar (.subscribe args) resposta cliente).1.callbackMap topico = none := by
  have nonempty : args.topicos ≠ [] := List.ne_nil_of_mem named
  cases resposta with
  | rejeitada ret erro =>
      simp only [executar, Subscribe.executar, List.isEmpty_iff, nonempty, if_false,
        Subscribe.desfazer_eq_eraseAll]
      exact Table.eraseAll_of_mem named
  | concluida res =>
      simp only [executar, Subscribe.executar, List.isEmpty_iff, nonempty, if_false,
        Subscribe.desfazer_eq_eraseAll, refused res rfl, Bool.false_eq_true]
      exact Table.eraseAll_of_mem named

/-- A subscription that is granted in full leaves an entry for each of its
topics and keeps all others. -/
theorem isSome_of_concedida {args : Subscribe.Args} {res : Completion} {cliente : Cliente}
    {topico : StdString} (nonempty : args.topicos ≠ [])
    (granted : (Operation.subscribe args).outcome res = true) :
    (executar (.subscribe args) (.concluida res) cliente).1.callbackMap topico ≠ none ↔
      topico ∈ args.topicos ∨ cliente.callbackMap topico ≠ none := by
  rw [callbackMap_of_concedida nonempty granted, Table.insertAll_apply, ne_eq,
    Option.or_eq_none_iff, lookup_zip_eq_none_iff args.covered]
  tauto

end PahoClient
