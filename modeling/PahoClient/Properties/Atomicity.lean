import PahoClient.Client.Exceptions

/-!
# Subscribe calls left by an exception

The insertion loop runs between an acquisition and a release of
`_callback_map_slock` that no destructor and no handler of exceptions pairs.  An
exception keeps the entries inserted before it and the lock.
-/

namespace PahoClient

open PahoClient.Store
open PahoClient.Transition

/-- An exception leaves the call `c`. -/
def Leaves (c : CallId) (event : Event Execucao Label) : Prop :=
  event.source.excecao c = none ∧ event.target.excecao c ≠ none

/-- The call that an exception leaves does not hold the lock and has not changed
the table. -/
structure Atomic (c : CallId) (event : Event Execucao Label) : Prop where
  lock : event.target.state.callbackMapSlock.writer ≠ some (.call c)
  table : event.target.state.callbackMap = event.source.state.callbackMap

/-- The lock of the table is held by the call `c` and refused to everybody. -/
structure Stranded (c : CallId) (x : Execucao) : Prop where
  held : x.state.callbackMapSlock.writer = some (.call c)
  shared : ∀ agent, x.state.callbackMapSlock.acquireShared agent = none
  exclusive : ∀ agent, x.state.callbackMapSlock.acquireExclusive agent = none

/-- The entries before the first index at which an insertion throws are in the
table. -/
def HalfRegistered (chamadas : Chamadas) (c : CallId) (event : Event Execucao Label) : Prop :=
  ∃ vetores k, chamadas.op c = .subscribe vetores ∧ k < vetores.topicos.length ∧
    Lanca (chamadas.falha c) vetores.toVetores k ∧
    (∀ j, j < k → ¬ Lanca (chamadas.falha c) vetores.toVetores j) ∧
    event.target.state.callbackMap =
      event.source.state.callbackMap.insertAll (vetores.pares.take k)

section Runs

variable {chamadas : Chamadas} {x y : Execucao} {label : Label}

theorem ExcecaoInv.stranded (inv : ExcecaoInv chamadas x) {c : CallId}
    (thrown : x.excecao c ≠ none) : Stranded c x where
  held := inv.writer thrown
  shared agent := (Sync.RWLock.acquire_of_writer (inv.writer thrown) agent).1
  exclusive agent := (Sync.RWLock.acquire_of_writer (inv.writer thrown) agent).2

theorem halfRegistered_of_leaves (executed : excecaoStep chamadas x label = some y) {c : CallId}
    (leaves : Leaves c ⟨x, label, y⟩) : HalfRegistered chamadas c ⟨x, label, y⟩ := by
  cases excecaoStep_effect executed with
  | passo => exact absurd leaves.1 leaves.2
  | @lanca d ret vetores tipo k running op pc inside throws first =>
      by_cases own : c = d
      · subst d
        exact ⟨vetores, k, op, inside, throws, first, rfl⟩
      · have thrown := leaves.2
        simp only [Function.update_of_ne own] at thrown
        exact absurd leaves.1 thrown

/-- The lock stays refused and the table stays as it is for the rest of the
run. -/
theorem stranded_of_run {history : List (Event Execucao Label)}
    (run : Run (excecaoStep chamadas) x history y) (inv : ExcecaoInv chamadas x) {c : CallId}
    (thrown : x.excecao c ≠ none) :
    ∀ event ∈ history, Stranded c event.target ∧
      event.target.state.callbackMap = x.state.callbackMap := by
  intro event member
  obtain ⟨_, _, after, left, same⟩ := run.invariant_of_mem
    (fun z => ExcecaoInv chamadas z ∧ z.excecao c ≠ none ∧
      z.state.callbackMap = x.state.callbackMap)
    ⟨inv, thrown, rfl⟩
    (fun source label target before executed =>
      ⟨before.1.step executed, (before.1.stuck_step executed before.2.1).1,
        ((before.1.stuck_step executed before.2.1).2).trans before.2.2⟩)
    member
  exact ⟨after.stranded left, same⟩

/-- A call on vectors with a throwing index, made on a client that nobody uses, is
left by an exception. -/
theorem thrown_of_lanca {callbackMap : CallbackMap} {conectado : Bool} {c : CallId}
    {vetores : VetoresIguais} {k : Nat} (op : chamadas.op c = .subscribe vetores)
    (inside : k < vetores.topicos.length)
    (throws : Lanca (chamadas.falha c) vetores.toVetores k) :
    ∃ x, execute (excecaoStep chamadas) (Execucao.initial callbackMap conectado)
      [.start c, .call c 0, .call c 0, .call c 0] = some x ∧ x.excecao c ≠ none := by
  have nonempty : vetores.args.topicos.isEmpty = false := by
    cases topicos : vetores.topicos with
    | nil => simp [topicos] at inside
    | cons => simp [VetoresIguais.args, Vetores.args, topicos]
  obtain ⟨after, tipo, thrown⟩ :=
    inserirVetores_of_lanca callbackMap (Nat.le_of_eq vetores.iguais) inside throws
  simp [execute, excecaoStep, Execucao.initial, initial, PahoClient.step, Chamadas.program, op,
    Chamada.operation, goto, entry, State.setPc, despachar, Subscribe.despachar, nonempty,
    acquireMap, Sync.RWLock.acquireExclusive, Sync.RWLock.free, Subscribe.inserirOuLancar, thrown]

end Runs

/-- On every input at which an insertion throws, the exception leaves the call,
and in no run is the call that it leaves atomic: the entries before the throwing
index stay in the table, and the lock is refused to everybody from then on. -/
theorem subscribe_never_atomic (chamadas : Chamadas) (callbackMap : CallbackMap)
    (conectado : Bool) :
    (∀ c vetores k, chamadas.op c = .subscribe vetores → k < vetores.topicos.length →
      Lanca (chamadas.falha c) vetores.toVetores k →
        ∃ x, execute (excecaoStep chamadas) (Execucao.initial callbackMap conectado)
          [.start c, .call c 0, .call c 0, .call c 0] = some x ∧ x.excecao c ≠ none) ∧
    ∀ history x,
      Run (excecaoStep chamadas) (Execucao.initial callbackMap conectado) history x →
        ∀ later event earlier, history = later ++ event :: earlier → ∀ c, Leaves c event →
          ¬ Atomic c event ∧ HalfRegistered chamadas c event ∧ Stranded c event.target ∧
            ∀ other ∈ later, Stranded c other.target ∧
              other.target.state.callbackMap = event.target.state.callbackMap := by
  constructor
  · intro c vetores k op inside throws
    exact thrown_of_lanca op inside throws
  · rintro history x run later event earlier rfl c leaves
    obtain ⟨before, executed, after⟩ := run.split
    have inv := (excecaoInv_of_run before).step executed
    have stranded := inv.stranded leaves.2
    refine ⟨fun atomic => atomic.lock stranded.held, ?_, stranded, ?_⟩
    · exact halfRegistered_of_leaves executed leaves
    · exact stranded_of_run after inv leaves.2

/-- A valid topic and a null pointer, each with a callback. -/
def vetoresComNulo : VetoresIguais where
  topicos := [some [97], none]
  callbacks := [⟨1⟩, ⟨2⟩]
  iguais := rfl

/-- Every call subscribes to a null topic, and every allocation succeeds. -/
def chamadasComNulo : Chamadas where
  op _ := .subscribe vetoresComNulo
  falha _ _ := false
  topico _ := []

/-- The first call throws at its second topic, and the second call gets to the
lock. -/
def inscricaoComNulo : List Label :=
  [.start 0, .call 0 0, .call 0 0, .call 0 0, .start 1, .call 1 0]

theorem leaves_of_inscricaoComNulo :
    ∃ later event earlier x,
      Run (excecaoStep chamadasComNulo) (Execucao.initial (fun _ => none) true)
        (later ++ event :: earlier) x ∧ Leaves 0 event ∧
      event.target.state.callbackMapSlock.writer = some (.call 0) ∧ later ≠ [] := by
  obtain ⟨x, run, -⟩ := exists_run_of_execute (excecaoStep chamadasComNulo)
    (Execucao.initial (fun _ => none) true) inscricaoComNulo
    (fun x => x.state.pc 1) (.acquire .inserir) (by decide)
  obtain ⟨later, event, earlier, split, found, continued⟩ := exists_split_eventsOf
    (excecaoStep chamadasComNulo) (Execucao.initial (fun _ => none) true) inscricaoComNulo 3
    (fun event => event.source.excecao 0 == none && event.target.excecao 0 != none &&
      event.target.state.callbackMapSlock.writer == some (.call 0))
    (fun later => !later.isEmpty) (by decide)
  simp only [Bool.and_eq_true, beq_iff_eq, bne_iff_ne] at found
  rw [split] at run
  refine ⟨later, event, earlier, x, run, found.1, found.2, ?_⟩
  rintro rfl
  cases continued

theorem subscribe_never_atomic_null_topic :
    ∃ later event earlier x,
      Run (excecaoStep chamadasComNulo) (Execucao.initial (fun _ => none) true)
        (later ++ event :: earlier) x ∧ Leaves 0 event ∧ ¬ Atomic 0 event ∧ later ≠ [] ∧
      ∀ other ∈ later, Stranded 0 other.target := by
  obtain ⟨later, event, earlier, x, run, leaves, -, continued⟩ := leaves_of_inscricaoComNulo
  obtain ⟨notAtomic, -, -, stranded⟩ :=
    (subscribe_never_atomic chamadasComNulo (fun _ => none) true).2 _ x run later event earlier
      rfl 0 leaves
  exact ⟨later, event, earlier, x, run, leaves, notAtomic, continued,
    fun other member => (stranded other member).1⟩

/-- The null topic leaves the lock held. -/
theorem subscribe_not_always_atomic :
    ¬ ∀ (chamadas : Chamadas) (callbackMap : CallbackMap) (conectado : Bool)
      (history : List (Event Execucao Label)) (x : Execucao),
      Run (excecaoStep chamadas) (Execucao.initial callbackMap conectado) history x →
        ∀ later event earlier, history = later ++ event :: earlier → ∀ c, Leaves c event →
          Atomic c event := by
  intro atomic
  obtain ⟨later, event, earlier, x, run, leaves, held, -⟩ := leaves_of_inscricaoComNulo
  exact (atomic _ _ _ _ x run later event earlier rfl 0 leaves).lock held

end PahoClient
