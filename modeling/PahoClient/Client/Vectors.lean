import Mathlib.Data.List.GetD
import PahoClient.Client.Sequential
import PahoClient.Control.Loop

/-!
# A subscribe request over the vectors of its caller

The request reads its vectors by index and without a bound check, converts each
topic pointer with a string constructor that may throw, and runs up to four
loops.  An access outside a vector is undefined behaviour, which ends the loop
here with a reason of its own.  On vectors that cover each other, and while
nothing throws, the loops are those of the transition system.
-/

namespace PahoClient

open PahoClient.Control
open PahoClient.Store

/-- A topic as the caller passes it: `NULL`, or the storage of a C string. -/
abbrev TopicoPtr := Option (List UInt8)

/-- The two vectors that a caller passes to `subscribe`. -/
structure Vetores where
  topicos : List TopicoPtr
  callbacks : List Callback

/-- What the standard library throws in these loops: `std::logic_error` for a
null topic and `std::bad_alloc` for a failed allocation. -/
inductive Excecao where
  | logicError
  | badAlloc
  deriving DecidableEq, Repr

/-- Why a loop ends before its last index: an exception, an access outside a
vector, or a `return` statement. -/
inductive Saida where
  | excecao (tipo : Excecao)
  | foraDosLimites
  | retorno
  deriving DecidableEq, Repr

/-- `operator[]`. -/
def ler {α : Type} (vetor : List α) (i : Nat) : Except Saida α :=
  match vetor[i]? with
  | some valor => .ok valor
  | none => .error .foraDosLimites

/-- The constructor of the key of a topic, in an environment in which the
allocations for it may fail. -/
def construir (falha : Bool) : TopicoPtr → Except Saida StdString
  | none => .error (.excecao .logicError)
  | some storage =>
      if falha then .error (.excecao .badAlloc) else .ok (StdString.ofCString storage)

namespace Subscribe

/-! ## The loops -/

/-- `_qos_requisitados(_topicos.size(), 1)`. -/
def qosRequisitadosDe (vetores : Vetores) : List Int :=
  List.replicate vetores.topicos.length 1

/-- `_callback_map.insert({_topicos[i], _callbacks[i]})`.  `falha` tells whether
the key or the entry cannot be allocated. -/
def inserirEm (falha : Nat → Bool) (vetores : Vetores) (i : Nat) (map : CallbackMap) :
    Except Saida CallbackMap := do
  let topico ← ler vetores.topicos i
  let callback ← ler vetores.callbacks i
  let chave ← construir (falha i) topico
  return map.insertNew chave callback

/-- The insertion loop of `despachar`. -/
def inserirVetores (falha : Nat → Bool) (vetores : Vetores) (map : CallbackMap) :
    CallbackMap × Option Saida :=
  forLoop (inserirEm falha vetores) 0 vetores.topicos.length map

/-- `_callback_map.erase(_topicos[j])`. -/
def desfazerEm (falha : Nat → Bool) (vetores : Vetores) (j : Nat) (map : CallbackMap) :
    Except Saida CallbackMap := do
  let topico ← ler vetores.topicos j
  let chave ← construir (falha j) topico
  return map.erase chave

/-- The rollback loop of `despachar`, `falha` and `sucesso`. -/
def desfazerVetores (falha : Nat → Bool) (vetores : Vetores) (map : CallbackMap) :
    CallbackMap × Option Saida :=
  forLoop (desfazerEm falha vetores) 0 (qosRequisitadosDe vetores).length map

/-- The returned codes: `&alt.qos` for one topic and `alt.qosList` for
several. -/
def qosDevolvidosDe (vetores : Vetores) (res : SuccessData) : List Int :=
  if (qosRequisitadosDe vetores).length = 1 then [res.qos] else res.qosList

/-- One turn of the loop of `sucesso`.  A refused topic is named in the
diagnostic before the function rolls back and returns. -/
def verificarEm (vetores : Vetores) (devolvidos : List Int) (i : Nat) (_ : Unit) :
    Except Saida Unit := do
  let devolvido ← ler devolvidos i
  let recusado ←
    if devolvido = MQTT_BAD_SUBSCRIBE then pure true
    else do
      let requisitado ← ler (qosRequisitadosDe vetores) i
      pure (decide (devolvido < requisitado))
  if recusado then
    let _ ← ler vetores.topicos i
    throw .retorno

/-- The loop of `sucesso` over the returned codes. -/
def verificar (vetores : Vetores) (res : SuccessData) : Option Saida :=
  (forLoop (verificarEm vetores (qosDevolvidosDe vetores res)) 0
    (qosRequisitadosDe vetores).length ()).2

/-! ## The request -/

/-- Roll back and return `false`. -/
def reverter (falha : Nat → Bool) (vetores : Vetores) (map : CallbackMap) :
    CallbackMap × Except Saida Bool :=
  match desfazerVetores falha vetores map with
  | (map, none) => (map, .ok false)
  | (map, some saida) => (map, .error saida)

/-- A whole subscribe request: the table it leaves, and what it returns or how it
ends otherwise.  Its insertions and its erasures fail to allocate where the two
oracles say so, and `outros` is what other threads do to the table between
them. -/
def pedir (falhas : (Nat → Bool) × (Nat → Bool)) (outros : CallbackMap → CallbackMap)
    (vetores : Vetores) (resposta : Resposta) (map : CallbackMap) :
    CallbackMap × Except Saida Bool :=
  if vetores.topicos.isEmpty then (map, .ok false)
  else
    match inserirVetores falhas.1 vetores map with
    | (map, some saida) => (map, .error saida)
    | (map, none) =>
        match resposta with
        | .rejeitada _ _ => reverter falhas.2 vetores (outros map)
        | .concluida (.onFailure _) => reverter falhas.2 vetores (outros map)
        | .concluida (.onSuccess res) =>
            match verificar vetores res with
            | none => (outros map, .ok true)
            | some .retorno => reverter falhas.2 vetores (outros map)
            | some saida => (outros map, .error saida)

end Subscribe

/-! ## Where the loops end -/

/-- The key of a topic that is not null. -/
def chaveDe (topico : TopicoPtr) : StdString :=
  StdString.ofCString (topico.getD [])

/-- The entries of a request, as far as both vectors reach. -/
def Vetores.pares (vetores : Vetores) : List (StdString × Callback) :=
  (vetores.topicos.map chaveDe).zip vetores.callbacks

/-- Building the key of a topic, or inserting its entry, throws. -/
def Lanca (falha : Nat → Bool) (vetores : Vetores) (k : Nat) : Prop :=
  vetores.topicos[k]? = some none ∨ k < vetores.topicos.length ∧ falha k = true

/-- How the construction of a key ends. -/
def saidaAoConstruir (falha : Bool) (topico : TopicoPtr) : Option Saida :=
  if topico = none then some (.excecao .logicError)
  else if falha then some (.excecao .badAlloc)
  else none

/-- How the insertion loop ends at an index, if it does. -/
def saidaAoInserir (falha : Nat → Bool) (vetores : Vetores) (i : Nat) : Option Saida :=
  if i < vetores.topicos.length ∧ i < vetores.callbacks.length then
    saidaAoConstruir (falha i) (vetores.topicos.getD i none)
  else some .foraDosLimites

/-- How the rollback loop ends at an index, if it does. -/
def saidaAoDesfazer (falha : Nat → Bool) (vetores : Vetores) (j : Nat) : Option Saida :=
  if j < vetores.topicos.length then
    saidaAoConstruir (falha j) (vetores.topicos.getD j none)
  else some .foraDosLimites

section Loops

variable {falha : Nat → Bool} {vetores : Vetores} {map : CallbackMap}

theorem ler_of_lt {α : Type} {vetor : List α} {i : Nat} (inside : i < vetor.length) :
    ler vetor i = .ok vetor[i] := by
  rw [ler, List.getElem?_eq_getElem inside]

theorem ler_of_le {α : Type} {vetor : List α} {i : Nat} (outside : vetor.length ≤ i) :
    ler vetor i = .error .foraDosLimites := by
  rw [ler, List.getElem?_eq_none outside]

theorem construir_eq (falha : Bool) (topico : TopicoPtr) :
    construir falha topico =
      match saidaAoConstruir falha topico with
      | none => .ok (chaveDe topico)
      | some saida => .error saida := by
  cases topico with
  | none => rfl
  | some storage => cases falha <;> rfl

theorem pares_length (vetores : Vetores) :
    vetores.pares.length = min vetores.topicos.length vetores.callbacks.length := by
  rw [Vetores.pares, List.length_zip, List.length_map]

theorem pares_getElem {i : Nat} (inTopicos : i < vetores.topicos.length)
    (inCallbacks : i < vetores.callbacks.length) :
    vetores.pares[i]? = some (chaveDe vetores.topicos[i], vetores.callbacks[i]) := by
  have inside : i < vetores.pares.length := by
    rw [pares_length]
    omega
  rw [List.getElem?_eq_getElem inside]
  simp [Vetores.pares]

/-- A turn of the insertion loop reads both vectors and inserts one entry, unless
it ends the loop. -/
theorem inserirEm_eq_stopping (falha : Nat → Bool) (vetores : Vetores) :
    Subscribe.inserirEm falha vetores = stopping (saidaAoInserir falha vetores)
      (onElement vetores.pares fun map par => map.insertNew par.1 par.2) := by
  funext i map
  rw [Subscribe.inserirEm, stopping, saidaAoInserir]
  by_cases inTopicos : i < vetores.topicos.length
  · by_cases inCallbacks : i < vetores.callbacks.length
    · rw [ler_of_lt inTopicos, ler_of_lt inCallbacks, if_pos ⟨inTopicos, inCallbacks⟩,
        List.getD_eq_getElem _ _ inTopicos, onElement, pares_getElem inTopicos inCallbacks]
      simp only [bind, Except.bind, construir_eq]
      cases saidaAoConstruir (falha i) vetores.topicos[i] <;> rfl
    · rw [ler_of_lt inTopicos, ler_of_le (by omega), if_neg fun both => inCallbacks both.2]
      rfl
  · rw [ler_of_le (by omega), if_neg fun both => inTopicos both.1]
    rfl

/-- A turn of the rollback loop reads one topic and erases its entry, unless it
ends the loop. -/
theorem desfazerEm_eq_stopping (falha : Nat → Bool) (vetores : Vetores) :
    Subscribe.desfazerEm falha vetores = stopping (saidaAoDesfazer falha vetores)
      (onElement (vetores.topicos.map chaveDe) Table.erase) := by
  funext j map
  rw [Subscribe.desfazerEm, stopping, saidaAoDesfazer]
  by_cases inTopicos : j < vetores.topicos.length
  · rw [ler_of_lt inTopicos, if_pos inTopicos, List.getD_eq_getElem _ _ inTopicos, onElement,
      List.getElem?_map, List.getElem?_eq_getElem inTopicos]
    simp only [bind, Except.bind, construir_eq]
    cases saidaAoConstruir (falha j) vetores.topicos[j] <;> rfl
  · rw [ler_of_le (by omega), if_neg inTopicos]
    rfl

theorem insertAll_pares (map : CallbackMap) (k : Nat) :
    advance (onElement vetores.pares fun map par => map.insertNew par.1 par.2) 0 k map =
      map.insertAll (vetores.pares.take k) := by
  rw [advance_onElement, List.drop_zero, Table.insertAll_eq_foldl]

/-- The insertion loop inserts every entry if nothing ends it. -/
theorem inserirVetores_of_none (map : CallbackMap)
    (none : ∀ i, i < vetores.topicos.length → saidaAoInserir falha vetores i = none) :
    Subscribe.inserirVetores falha vetores map = (map.insertAll vetores.pares, .none) := by
  rw [Subscribe.inserirVetores, inserirEm_eq_stopping,
    forLoop_of_none _ _ fun i _ small => none i (by omega), insertAll_pares,
    List.take_of_length_le]
  rw [pares_length]
  omega

/-- The insertion loop ends at the first index with a reason and leaves the
entries before it. -/
theorem inserirVetores_of_first (map : CallbackMap) {k : Nat} {saida : Saida}
    (inside : k < vetores.topicos.length) (stops : saidaAoInserir falha vetores k = some saida)
    (before : ∀ j, j < k → saidaAoInserir falha vetores j = none) :
    Subscribe.inserirVetores falha vetores map =
      (map.insertAll (vetores.pares.take k), some saida) := by
  rw [Subscribe.inserirVetores, inserirEm_eq_stopping,
    forLoop_of_first _ _ inside (by rwa [Nat.zero_add]) fun j small => by
      rw [Nat.zero_add]
      exact before j small,
    insertAll_pares]

/-- The rollback loop erases every topic if nothing ends it. -/
theorem desfazerVetores_of_none (map : CallbackMap)
    (none : ∀ j, j < vetores.topicos.length → saidaAoDesfazer falha vetores j = none) :
    Subscribe.desfazerVetores falha vetores map =
      (map.eraseAll (vetores.topicos.map chaveDe), .none) := by
  rw [Subscribe.desfazerVetores, Subscribe.qosRequisitadosDe, List.length_replicate,
    desfazerEm_eq_stopping, forLoop_of_none _ _ fun j _ small => none j (by omega),
    advance_onElement, List.drop_zero, Table.eraseAll_eq_foldl,
    List.take_of_length_le (Nat.le_of_eq (List.length_map _))]

theorem saidaAoConstruir_eq_none_iff (falha : Bool) (topico : TopicoPtr) :
    saidaAoConstruir falha topico = none ↔ topico ≠ none ∧ falha = false := by
  cases topico <;> cases falha <;> simp [saidaAoConstruir]

theorem exists_excecao_of_saidaAoConstruir {falha : Bool} {topico : TopicoPtr} {saida : Saida}
    (ends : saidaAoConstruir falha topico = some saida) : ∃ tipo, saida = .excecao tipo := by
  simp only [saidaAoConstruir] at ends
  split_ifs at ends <;> cases ends <;> exact ⟨_, rfl⟩

/-- At an index of the topics the construction of the key throws or succeeds. -/
theorem lanca_iff {i : Nat} (inside : i < vetores.topicos.length) :
    Lanca falha vetores i ↔
      saidaAoConstruir (falha i) (vetores.topicos.getD i none) ≠ none := by
  rw [Lanca, Ne, saidaAoConstruir_eq_none_iff, List.getD_eq_getElem _ _ inside,
    List.getElem?_eq_getElem inside]
  cases vetores.topicos[i] <;> simp [inside]

/-- An index with an element in both vectors ends the insertion loop exactly when
the insertion throws. -/
theorem saidaAoInserir_eq_none_iff {i : Nat} :
    saidaAoInserir falha vetores i = none ↔
      i < vetores.topicos.length ∧ i < vetores.callbacks.length ∧ ¬ Lanca falha vetores i := by
  rw [saidaAoInserir]
  split
  · rename_i inside
    simp [inside, lanca_iff inside.1]
  · rename_i outside
    simp only [reduceCtorEq, false_iff]
    exact fun inside => outside ⟨inside.1, inside.2.1⟩

/-- Over vectors that cover the topics the insertion loop ends by an exception if
one of its insertions throws. -/
theorem inserirVetores_of_lanca (map : CallbackMap)
    (covered : vetores.topicos.length ≤ vetores.callbacks.length) {k : Nat}
    (inside : k < vetores.topicos.length) (throws : Lanca falha vetores k) :
    ∃ after tipo, Subscribe.inserirVetores falha vetores map = (after, some (.excecao tipo)) := by
  rcases none_or_first (saidaAoInserir falha vetores) vetores.topicos.length with
    none | ⟨j, saida, small, stops, before⟩
  · exact absurd throws (saidaAoInserir_eq_none_iff.mp (none k inside)).2.2
  · have ends := inserirVetores_of_first map small stops before
    rw [saidaAoInserir, if_pos ⟨small, by omega⟩] at stops
    obtain ⟨tipo, rfl⟩ := exists_excecao_of_saidaAoConstruir stops
    exact ⟨_, tipo, ends⟩

/-- The insertion loop leaves a vector exactly at the indices where one of them
has no element. -/
theorem saidaAoInserir_eq_foraDosLimites_iff {i : Nat} :
    saidaAoInserir falha vetores i = some .foraDosLimites ↔
      vetores.topicos.length ≤ i ∨ vetores.callbacks.length ≤ i := by
  rw [saidaAoInserir]
  split
  · rename_i inside
    constructor
    · intro ends
      obtain ⟨tipo, impossible⟩ := exists_excecao_of_saidaAoConstruir ends
      cases impossible
    · omega
  · rename_i outside
    simp only [true_iff]
    omega

/-- One returned code for each requested topic. -/
def Subscribe.Responde (vetores : Vetores) (res : SuccessData) : Prop :=
  (Subscribe.qosDevolvidosDe vetores res).length = vetores.topicos.length

/-- The returned codes next to the requested ones. -/
def codigosDe (vetores : Vetores) (res : SuccessData) : List (Int × Int) :=
  (Subscribe.qosDevolvidosDe vetores res).zip (Subscribe.qosRequisitadosDe vetores)

/-- How the check loop ends at an index, if it does. -/
def saidaAoVerificar (codigos : List (Int × Int)) (i : Nat) : Option Saida :=
  if codigos[i]?.any fun codes => Subscribe.codigoRecusado codes.1 codes.2 then some .retorno
  else none

/-- With a code for each topic, a turn of the check loop compares a returned code
with a requested one. -/
theorem verificarEm_eq_stopping {res : SuccessData} (answered : Subscribe.Responde vetores res)
    {i : Nat} (inside : i < vetores.topicos.length) :
    Subscribe.verificarEm vetores (Subscribe.qosDevolvidosDe vetores res) i =
      stopping (saidaAoVerificar (codigosDe vetores res)) (fun _ state => state) i := by
  have inDevolvidos : i < (Subscribe.qosDevolvidosDe vetores res).length := by
    rwa [answered]
  have inRequisitados : i < (Subscribe.qosRequisitadosDe vetores).length := by
    rwa [Subscribe.qosRequisitadosDe, List.length_replicate]
  have codes : (codigosDe vetores res)[i]? =
      some ((Subscribe.qosDevolvidosDe vetores res)[i],
        (Subscribe.qosRequisitadosDe vetores)[i]) := by
    rw [codigosDe, List.getElem?_zip_eq_some]
    exact ⟨List.getElem?_eq_getElem inDevolvidos, List.getElem?_eq_getElem inRequisitados⟩
  funext state
  rw [Subscribe.verificarEm, ler_of_lt inDevolvidos, ler_of_lt inRequisitados, ler_of_lt inside,
    stopping, saidaAoVerificar, codes, Option.any_some, Subscribe.codigoRecusado]
  simp only [bind, Except.bind, pure, Except.pure]
  by_cases bad : (Subscribe.qosDevolvidosDe vetores res)[i] = MQTT_BAD_SUBSCRIBE
  · simp [bad]
    rfl
  · by_cases lower :
      (Subscribe.qosDevolvidosDe vetores res)[i] < (Subscribe.qosRequisitadosDe vetores)[i]
    · simp [bad, lower]
      rfl
    · simp [bad, lower]

theorem saidaAoDesfazer_eq_none {j : Nat} (inside : j < vetores.topicos.length)
    (quiet : ¬ Lanca falha vetores j) : saidaAoDesfazer falha vetores j = none := by
  rw [saidaAoDesfazer, if_pos inside]
  rw [lanca_iff inside] at quiet
  exact not_not.mp quiet

/-- Without an exception the rollback erases every topic and returns `false`. -/
theorem reverter_eq (map : CallbackMap)
    (quiet : ∀ j, ¬ Lanca falha vetores j) :
    Subscribe.reverter falha vetores map =
      (map.eraseAll (vetores.topicos.map chaveDe), .ok false) := by
  rw [Subscribe.reverter,
    desfazerVetores_of_none map fun j inside => saidaAoDesfazer_eq_none inside (quiet j)]

/-- The check loop returns exactly when some topic is refused. -/
theorem verificar_eq {res : SuccessData} (answered : Subscribe.Responde vetores res) :
    Subscribe.verificar vetores res =
      if (codigosDe vetores res).any fun codes => Subscribe.codigoRecusado codes.1 codes.2 then
        some .retorno
      else none := by
  have length : (codigosDe vetores res).length = vetores.topicos.length := by
    rw [codigosDe, List.length_zip, answered, Subscribe.qosRequisitadosDe, List.length_replicate,
      Nat.min_self]
  rw [Subscribe.verificar, Subscribe.qosRequisitadosDe, List.length_replicate,
    forLoop_congr () fun i _ small => verificarEm_eq_stopping answered (by omega)]
  rcases none_or_first (saidaAoVerificar (codigosDe vetores res)) vetores.topicos.length with
    none | ⟨k, saida, inside, stops, before⟩
  · rw [forLoop_of_none _ _ fun i _ small => none i (by omega), if_neg]
    intro refused
    obtain ⟨codes, member, found⟩ := List.any_eq_true.mp refused
    obtain ⟨i, small, rfl⟩ := List.getElem_of_mem member
    have passed := none i (by omega)
    rw [saidaAoVerificar, List.getElem?_eq_getElem small, Option.any_some, if_pos found] at passed
    cases passed
  · rw [forLoop_of_first _ _ inside (by rwa [Nat.zero_add]) fun j small => by
      rw [Nat.zero_add]
      exact before j small]
    rw [saidaAoVerificar, List.getElem?_eq_getElem (by omega), Option.any_some] at stops
    split at stops
    · rename_i refused
      rw [if_pos (List.any_eq_true.mpr ⟨_, List.getElem_mem _, refused⟩)]
      exact stops.symm
    · cases stops

/-- The request as the transition system sees it. -/
def Vetores.args (vetores : Vetores)
    (covered : vetores.topicos.length ≤ vetores.callbacks.length) : Subscribe.Args where
  topicos := vetores.topicos.map chaveDe
  callbacks := vetores.callbacks
  covered := by rwa [List.length_map]

theorem inserirVetores_eq_inserir
    (covered : vetores.topicos.length ≤ vetores.callbacks.length)
    (quiet : ∀ k, ¬ Lanca falha vetores k) (map : CallbackMap) :
    Subscribe.inserirVetores falha vetores map =
      (Subscribe.inserir (vetores.args covered) map, none) :=
  inserirVetores_of_none map fun i inside =>
    saidaAoInserir_eq_none_iff.mpr ⟨inside, by omega, quiet i⟩

theorem recusado_args (covered : vetores.topicos.length ≤ vetores.callbacks.length)
    (res : SuccessData) :
    Subscribe.recusado (vetores.args covered) res =
      (codigosDe vetores res).any fun codes => Subscribe.codigoRecusado codes.1 codes.2 := by
  have requisitados :
      Subscribe.qosRequisitados (vetores.args covered) = Subscribe.qosRequisitadosDe vetores := by
    simp only [Subscribe.qosRequisitados, Vetores.args, List.length_map,
      Subscribe.qosRequisitadosDe]
  rw [Subscribe.recusado, Subscribe.qosDevolvidos, requisitados, codigosDe,
    Subscribe.qosDevolvidosDe]

/-- The library answers a request with one returned code for each topic. -/
def Subscribe.Respondido (vetores : Vetores) : Resposta → Prop
  | .concluida (.onSuccess res) => Subscribe.Responde vetores res
  | _ => True

/-- Over vectors that cover the topics, and while nothing throws, a request is the
one of the transition system. -/
theorem pedir_eq_executar {falhas : (Nat → Bool) × (Nat → Bool)}
    (covered : vetores.topicos.length ≤ vetores.callbacks.length)
    (quiet : ∀ k, ¬ Lanca falhas.1 vetores k ∧ ¬ Lanca falhas.2 vetores k) {resposta : Resposta}
    (answered : Subscribe.Respondido vetores resposta) (cliente : Cliente) :
    Subscribe.pedir falhas id vetores resposta cliente.callbackMap =
      ((Subscribe.executar (vetores.args covered) resposta cliente).1.callbackMap,
        .ok (Subscribe.executar (vetores.args covered) resposta cliente).2) := by
  have empty : (vetores.args covered).topicos.isEmpty = vetores.topicos.isEmpty := by
    simp [Vetores.args]
  rw [Subscribe.pedir, Subscribe.executar, empty]
  split
  · rfl
  · rw [inserirVetores_eq_inserir covered fun k => (quiet k).1]
    have undone : ∀ map, Subscribe.reverter falhas.2 vetores map =
        (map.eraseAll (vetores.topicos.map chaveDe), .ok false) :=
      fun map => reverter_eq map fun k => (quiet k).2
    cases resposta with
    | rejeitada ret erro =>
        simp only [undone, Subscribe.desfazer_eq_eraseAll]
        rfl
    | concluida res =>
        cases res with
        | onFailure data =>
            simp only [undone, Subscribe.desfazer_eq_eraseAll]
            rfl
        | onSuccess data =>
            have checked := verificar_eq answered
            rw [← recusado_args covered] at checked
            cases refused : Subscribe.recusado (vetores.args covered) data with
            | false => simp [checked, refused, Operation.outcome]
            | true =>
                simp [checked, refused, Operation.outcome, undone,
                  Subscribe.desfazer_eq_eraseAll]
                rfl

end Loops

end PahoClient
