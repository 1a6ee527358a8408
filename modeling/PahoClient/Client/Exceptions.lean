import PahoClient.Client.Locks
import PahoClient.Client.Registration
import PahoClient.Client.Vectors

/-!
# Exceptions out of a subscribe call

The system of a client whose subscribe calls insert the topics of their callers'
vectors.  An exception in the insertion loop leaves the call on the spot: its
frame is gone, and none of its later statements is executed.  As long as nothing
throws, the system is the one without exceptions.
-/

namespace PahoClient

open PahoClient.Control
open PahoClient.Store
open PahoClient.Transition

/-! ## Calls on the vectors of their callers -/

/-- Vectors with one callback for each topic. -/
structure VetoresIguais extends Vetores where
  iguais : topicos.length = callbacks.length

/-- The request as the transition system sees it. -/
def VetoresIguais.args (vetores : VetoresIguais) : Subscribe.Args :=
  vetores.toVetores.args (Nat.le_of_eq vetores.iguais)

/-- A call on the public interface of the client, as it is made. -/
inductive Chamada where
  | conectar
  | subscribe (vetores : VetoresIguais)
  | unsubscribe (topicos : List StdString)
  | desconectar

/-- The operation of a call. -/
def Chamada.operation : Chamada → Operation
  | conectar => .conectar
  | subscribe vetores => .subscribe vetores.args
  | unsubscribe topicos => .unsubscribe topicos
  | desconectar => .desconectar

/-- The calls of the application, the indices at which the insertion loop of a
call cannot allocate, and the topic storage of each delivered message. -/
structure Chamadas where
  op : CallId → Chamada
  falha : CallId → Nat → Bool
  topico : MsgId → List UInt8

/-- The program of the system without exceptions. -/
def Chamadas.program (chamadas : Chamadas) : Program where
  op c := (chamadas.op c).operation
  topico := chamadas.topico

/-! ## The system -/

/-- A client together with the calls that an exception has left. -/
structure Execucao where
  state : State
  excecao : CallId → Option Excecao

def Execucao.initial (callbackMap : CallbackMap) (conectado : Bool) : Execucao where
  state := PahoClient.initial callbackMap conectado
  excecao _ := none

/-- The insertion loop of a call.  The statement after the loop releases the
lock; an exception skips it. -/
def Subscribe.inserirOuLancar (falha : Nat → Bool) (vetores : Vetores) (c : CallId)
    (x : Execucao) : Option Execucao :=
  match Subscribe.inserirVetores falha vetores x.state.callbackMap with
  | (map, none) =>
      some { x with state := { x.state with callbackMap := map }.setPc c (.release .inserir) }
  | (map, some (.excecao tipo)) =>
      some
        { state := { x.state with callbackMap := map }
          excecao := Function.update x.excecao c (some tipo) }
  | (_, some _) => none

/-- One step of the system with exceptions. -/
def excecaoStep (chamadas : Chamadas) : Step Execucao Label
  | x, .call c ret =>
      if (x.excecao c).isSome then none
      else
        match chamadas.op c, x.state.pc c with
        | .subscribe vetores, .loop .inserir =>
            Subscribe.inserirOuLancar (chamadas.falha c) vetores.toVetores c x
        | _, _ => (step chamadas.program x.state (.call c ret)).map fun s => { x with state := s }
  | x, label => (step chamadas.program x.state label).map fun s => { x with state := s }

/-- What a step of the system with exceptions does: a step of the system without
them, or an exception at the first index at which an insertion throws. -/
inductive ExcecaoEffect (chamadas : Chamadas) (x : Execucao) : Label → Execucao → Prop
  | passo {label : Label} {s : State}
      (executed : step chamadas.program x.state label = some s)
      (running : ∀ c ret, label = .call c ret → x.excecao c = none) :
      ExcecaoEffect chamadas x label { x with state := s }
  | lanca {c : CallId} {ret : Int} {vetores : VetoresIguais} {tipo : Excecao} {k : Nat}
      (running : x.excecao c = none) (op : chamadas.op c = .subscribe vetores)
      (pc : x.state.pc c = .loop .inserir)
      (inside : k < vetores.topicos.length)
      (throws : Lanca (chamadas.falha c) vetores.toVetores k)
      (first : ∀ j, j < k → ¬ Lanca (chamadas.falha c) vetores.toVetores j) :
      ExcecaoEffect chamadas x (.call c ret)
        { state := { x.state with
            callbackMap := x.state.callbackMap.insertAll (vetores.pares.take k) }
          excecao := Function.update x.excecao c (some tipo) }

section Steps

variable {chamadas : Chamadas} {x y : Execucao} {label : Label}

/-- The insertion loop is the one of the system without exceptions, or it throws
at the first index at which an insertion throws. -/
theorem inserirOuLancar_effect {vetores : VetoresIguais} {c : CallId} {ret : Int}
    (executed : Subscribe.inserirOuLancar (chamadas.falha c) vetores.toVetores c x = some y)
    (running : x.excecao c = none) (op : chamadas.op c = .subscribe vetores)
    (pc : x.state.pc c = .loop .inserir) : ExcecaoEffect chamadas x (.call c ret) y := by
  rw [Subscribe.inserirOuLancar] at executed
  rcases none_or_first (saidaAoInserir (chamadas.falha c) vetores.toVetores)
      vetores.topicos.length with none | ⟨k, saida, inside, stops, before⟩
  · rw [inserirVetores_of_none x.state.callbackMap none] at executed
    cases executed
    apply ExcecaoEffect.passo
    · simp only [step, Chamadas.program, op, Chamada.operation, despachar, Subscribe.despachar, pc,
        updateMap]
      rfl
    · rintro d ret' labelEq
      cases labelEq
      exact running
  · rw [inserirVetores_of_first x.state.callbackMap inside stops before] at executed
    have covered : k < vetores.callbacks.length := by
      rw [← vetores.iguais]
      exact inside
    have throws : Lanca (chamadas.falha c) vetores.toVetores k := by
      by_contra quiet
      rw [saidaAoInserir_eq_none_iff.mpr ⟨inside, covered, quiet⟩] at stops
      cases stops
    have first : ∀ j, j < k → ¬ Lanca (chamadas.falha c) vetores.toVetores j := fun j small =>
      (saidaAoInserir_eq_none_iff.mp (before j small)).2.2
    cases saida with
    | excecao tipo =>
        cases executed
        exact .lanca running op pc inside throws first
    | foraDosLimites | retorno => cases executed

theorem excecaoStep_effect (executed : excecaoStep chamadas x label = some y) :
    ExcecaoEffect chamadas x label y := by
  unfold excecaoStep at executed
  split at executed
  · rename_i c ret
    split at executed
    · cases executed
    · rename_i alive
      rw [Bool.not_eq_true, Option.isSome_eq_false_iff, Option.isNone_iff_eq_none] at alive
      split at executed
      · rename_i vetores op pc
        exact inserirOuLancar_effect executed alive op pc
      · obtain ⟨s, stepped, rfl⟩ := Option.map_eq_some_iff.mp executed
        refine .passo stepped ?_
        rintro d ret' labelEq
        cases labelEq
        exact alive
  · rename_i notCall
    obtain ⟨s, stepped, rfl⟩ := Option.map_eq_some_iff.mp executed
    exact .passo stepped fun c ret labelEq => absurd labelEq (notCall c ret)

/-! ## Calls that an exception has left -/

/-- The invariant of the system with exceptions: a call that an exception has
left stays in its insertion loop. -/
structure ExcecaoInv (chamadas : Chamadas) (x : Execucao) : Prop where
  inv : Inv chamadas.program x.state
  guarded : x.state.MapGuarded
  left : ∀ c, x.excecao c ≠ none → x.state.pc c = .loop .inserir

theorem excecaoInv_initial (chamadas : Chamadas) (callbackMap : CallbackMap) (conectado : Bool) :
    ExcecaoInv chamadas (Execucao.initial callbackMap conectado) where
  inv := inv_initial _ _ _
  guarded := mapGuarded_initial _ _
  left _ thrown := absurd rfl thrown

theorem ExcecaoInv.step (inv : ExcecaoInv chamadas x)
    (executed : excecaoStep chamadas x label = some y) : ExcecaoInv chamadas y := by
  cases excecaoStep_effect executed with
  | @passo _ s stepped running =>
      constructor
      · exact inv.inv.step stepped
      · exact inv.guarded.step inv.inv stepped
      · intro c thrown
        have notCall : ∀ ret, label ≠ .call c ret := fun ret labelEq =>
          thrown (running c ret labelEq)
        rcases pc_of_not_call stepped notCall with same | ⟨idle, _⟩
        · rw [same]
          exact inv.left c thrown
        · rw [inv.left c thrown] at idle
          cases idle
  | @lanca c ret vetores tipo k running op pc =>
      constructor
      · exact inv.inv.frame rfl rfl rfl rfl
      · exact inv.guarded.frame rfl (fun _ => rfl) (fun _ => rfl) (fun _ => rfl)
      · intro d thrown
        by_cases own : d = c
        · subst d
          exact pc
        · simp only [Function.update_of_ne own] at thrown
          exact inv.left d thrown

theorem excecaoInv_of_run {callbackMap : CallbackMap} {conectado : Bool}
    {history : List (Event Execucao Label)}
    (run : Run (excecaoStep chamadas) (Execucao.initial callbackMap conectado) history x) :
    ExcecaoInv chamadas x :=
  run.invariant (ExcecaoInv chamadas) (excecaoInv_initial _ _ _) fun _ _ _ before executed =>
    before.step executed

/-- A call that an exception has left holds the lock. -/
theorem ExcecaoInv.writer (inv : ExcecaoInv chamadas x) {c : CallId}
    (thrown : x.excecao c ≠ none) : x.state.callbackMapSlock.writer = some (.call c) := by
  apply (inv.guarded.writer (.call c)).mpr
  rw [State.writesMap, inv.left c thrown]
  rfl

/-- While a call that an exception has left holds the lock, no other call and no
handler is in a section that changes the table. -/
theorem ExcecaoInv.alone (inv : ExcecaoInv chamadas x) {c : CallId}
    (thrown : x.excecao c ≠ none) (agent : Agent) (writes : x.state.writesMap agent = true) :
    agent = .call c := by
  have holds : x.state.writesMap (.call c) = true := by
    rw [State.writesMap, inv.left c thrown]
    rfl
  exact inv.guarded.unique writes holds

/-- Once an exception has left a call, the table does not change any more. -/
theorem ExcecaoInv.stuck_step (inv : ExcecaoInv chamadas x)
    (executed : excecaoStep chamadas x label = some y) {c : CallId}
    (thrown : x.excecao c ≠ none) :
    y.excecao c ≠ none ∧ y.state.callbackMap = x.state.callbackMap := by
  cases excecaoStep_effect executed with
  | @passo _ s stepped running =>
      refine ⟨thrown, ?_⟩
      have updated := callbackMap_step stepped
      cases loops : lacoOf chamadas.program ⟨x.state, label, s⟩ with
      | none =>
          rw [updated]
          simp [updates, lacos, loops]
      | some entry =>
          obtain ⟨d, laco⟩ := entry
          rcases label_of_lacoOf loops with ⟨ret, labelEq, pc⟩ | ⟨_, _, res, args, handling, _⟩
          · have own := inv.alone thrown (.call d) (by
              rw [State.writesMap, pc]
              rfl)
            cases own
            exact absurd (running c ret labelEq) thrown
          · have own := inv.alone thrown (.handler d) (by
              rw [State.writesMap, handling]
              rfl)
            cases own
  | @lanca d ret vetores tipo k running op pc =>
      have own := inv.alone thrown (.call d) (by
        rw [State.writesMap, pc]
        rfl)
      cases own
      exact absurd running thrown

/-! ## Runs in which nothing throws -/

/-- An event as the system without exceptions sees it. -/
def semExcecoes (event : Event Execucao Label) : Event State Label :=
  ⟨event.source.state, event.label, event.target.state⟩

/-- A run that leaves no call by an exception is a run of the system without
exceptions. -/
theorem run_semExcecoes {start : Execucao} {history : List (Event Execucao Label)}
    (run : Run (excecaoStep chamadas) start history x) (none : ∀ c, x.excecao c = none) :
    Run (PahoClient.step chamadas.program) start.state (history.map semExcecoes) x.state := by
  induction run with
  | refl => exact Run.refl
  | @tail history source target label run executed ih =>
      cases excecaoStep_effect executed with
      | passo stepped => exact (ih none).tail stepped
      | @lanca c _ _ tipo _ _ _ _ _ _ _ =>
          have thrown := none c
          simp at thrown

end Steps

end PahoClient
