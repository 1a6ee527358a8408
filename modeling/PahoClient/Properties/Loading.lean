import PahoClient.Dll.Loading
import PahoClient.Transition.Simulation

/-!
# The wrapper that several constructors load

The handle of the library is stored before the pointers, but a constructor tests
it under `_dll_mtx` only, so it never takes a half loaded table for a loaded one.
The methods read without the mutex: those of a client whose load succeeded see
the whole table, and no guarded method calls through a null pointer.
-/

namespace PahoClient

open PahoClient.Transition

/-! ## One load after the other -/

/-- The wrapper and the result of each constructor's load. -/
abbrev CargaAtomica :=
  MQTTDll × (Nat → Option Bool)

/-- A constructor loads the library in one step, for which `LoadLibrary` finds the
given library. -/
def cargaAtomica : Step CargaAtomica (Nat × Option Biblioteca) := fun s passo =>
  if s.2 passo.1 = none then
    some ((s.1.load passo.2).1,
      Function.update s.2 passo.1 (some (s.1.load passo.2).2))
  else
    none

/-- A load happens at the test that finds the handle, at the test that finds no
library, or at the last assignment. -/
def vistaDeCarga : View Carga PassoDeCarga (Nat × Option Biblioteca)
  | s, .carregar k _ =>
      match s.construtor k with
      | .testHDll => if s.dll.hDll.isSome then some (k, none) else none
      | .testCarregada => if s.dll.hDll.isSome then none else some (k, none)
      | .atribuir i => if i < ordem.length then none else some (k, s.dll.hDll)
      | _ => none
  | _, _ => none

/-- The result of a load that has happened. -/
def PcConstrutor.resultado : PcConstrutor → Option Bool
  | unlockDll res | carregado res => some res
  | _ => none

/-- The atomic wrapper has nothing of a load that is under way. -/
structure Carregada (s : Carga) (a : CargaAtomica) : Prop where
  inv : CargaInv s
  resultado : ∀ k, a.2 k = (s.construtor k).resultado
  inteira : (∀ k, (s.construtor k).escreve = false) → a.1 = s.dll
  escrita : ∀ k, (s.construtor k).escreve = true → a.1 = .new

section Simulation

variable {s t : Carga} {a : CargaAtomica} {k : Nat}

theorem resultado_seguir {pc : PcConstrutor} (results : ∀ j, a.2 j = (s.construtor j).resultado)
    (same : pc.resultado = (s.construtor k).resultado) (j : Nat) :
    a.2 j = (Function.update s.construtor k pc j).resultado := by
  by_cases own : j = k
  · subst j
    rw [Function.update_self, same]
    exact results k
  · rw [Function.update_of_ne own]
    exact results j

/-- A statement that leaves the table and its writer alone. -/
theorem Carregada.quiet (loaded : Carregada s a) {mutex : Option Nat} {pc : PcConstrutor}
    (inv : CargaInv ({ s with dllMtx := mutex }.seguir k pc))
    (same : pc.resultado = (s.construtor k).resultado)
    (writes : pc.escreve = (s.construtor k).escreve) :
    Carregada ({ s with dllMtx := mutex }.seguir k pc) a where
  inv := inv
  resultado := resultado_seguir loaded.resultado same
  inteira quiet := by
    apply loaded.inteira
    intro j
    have after := quiet j
    by_cases own : j = k
    · subst j
      simpa [Carga.seguir, writes] using after
    · simpa [Carga.seguir, own] using after
  escrita j writing := by
    by_cases own : j = k
    · subst j
      apply loaded.escrita k
      simpa [Carga.seguir, writes] using writing
    · apply loaded.escrita j
      simpa [Carga.seguir, own] using writing

/-- A statement between the test of the handle and the end of the load. -/
theorem Carregada.loading (loaded : Carregada s a) {dll : MQTTDll} {pc : PcConstrutor}
    (inv : CargaInv ({ s with dll := dll }.seguir k pc))
    (same : pc.resultado = (s.construtor k).resultado) (empty : a.1 = .new)
    (writes : pc.escreve = true) : Carregada ({ s with dll := dll }.seguir k pc) a where
  inv := inv
  resultado := resultado_seguir loaded.resultado same
  inteira quiet := by
    have own := quiet k
    simp only [Carga.seguir, Function.update_self, writes] at own
    cases own
  escrita _ _ := empty

/-- The step at which a load happens. -/
theorem Carregada.happens (loaded : Carregada s a) {dll : MQTTDll} {res : Bool}
    {procurada : Option Biblioteca}
    (inv : CargaInv ({ s with dll := dll }.seguir k (.unlockDll res)))
    (inside : (s.construtor k).dentro = true) (before : (s.construtor k).resultado = none)
    (load : a.1.load procurada = (dll, res)) :
    ∃ a', cargaAtomica a (k, procurada) = some a' ∧
      Carregada ({ s with dll := dll }.seguir k (.unlockDll res)) a' := by
  refine ⟨(dll, Function.update a.2 k (some res)), ?_, inv, ?_, fun _ => rfl, ?_⟩
  · unfold cargaAtomica
    rw [if_pos ((loaded.resultado k).trans before)]
    dsimp only
    rw [load]
  · intro j
    by_cases own : j = k
    · subst j
      simp [Carga.seguir, PcConstrutor.resultado]
    · simpa [Carga.seguir, own] using loaded.resultado j
  · intro j writing
    by_cases own : j = k
    · subst j
      simp [Carga.seguir, PcConstrutor.escreve] at writing
    · have quiet := loaded.inv.alone_escreve inside own
      simp only [Carga.seguir, Function.update_of_ne own, quiet] at writing
      cases writing

/-- While a constructor tests the handle the two tables agree. -/
theorem Carregada.whole (loaded : Carregada s a) (pc : s.construtor k = .testHDll) :
    a.1 = .de s.dll.hDll := by
  have reads : ∀ j, (s.construtor j).escreve = false := by
    intro j
    by_cases own : j = k
    · subst j
      rw [pc]
      rfl
    · exact loaded.inv.alone_escreve (k := k) (by rw [pc]; rfl) own
  rw [loaded.inteira reads]
  exact loaded.inv.inteira reads

/-- Each statement of a constructor is silent or the load as a whole. -/
theorem Carregada.carregar (loaded : Carregada s a) {procurada : Option Biblioteca}
    (executed : passoDeCarga s (.carregar k procurada) = some t) :
    (vistaDeCarga s (.carregar k procurada) = none → Carregada t a) ∧
      ∀ seen, vistaDeCarga s (.carregar k procurada) = some seen →
        ∃ a', cargaAtomica a seen = some a' ∧ Carregada t a' := by
  have inv := loaded.inv.step executed
  simp only [passoDeCarga, Carga.carregar] at executed
  simp only [vistaDeCarga]
  split at executed
  case h_1 pc =>
      split at executed <;> cases executed
      exact ⟨fun _ => loaded.quiet inv (by rw [pc]; rfl) (by rw [pc]; rfl), by simp [pc]⟩
  case h_2 pc =>
      cases executed
      have whole := loaded.whole pc
      cases found : s.dll.hDll with
      | none =>
          rw [found] at inv whole
          exact ⟨fun _ => loaded.loading inv (by rw [pc]; rfl) whole rfl, by simp [pc]⟩
      | some biblioteca =>
          rw [found] at inv whole
          refine ⟨by simp [pc], ?_⟩
          intro seen view
          simp only [pc, Option.isSome_some, if_true, Option.some.injEq] at view
          subst seen
          have table : s.dll = .de (some biblioteca) := by
            rw [← found]
            exact loaded.inv.whole_of_dentro (k := k) (by rw [pc]; rfl) (by rw [pc]; rfl)
          refine loaded.happens inv (by rw [pc]; rfl) (by rw [pc]; rfl) ?_
          rw [whole, MQTTDll.load_de_some, table]
  case h_3 pc =>
      cases executed
      have empty := loaded.escrita k (by rw [pc]; rfl)
      exact ⟨fun _ => loaded.loading inv (by rw [pc]; rfl) empty rfl, by simp [pc]⟩
  case h_4 pc =>
      cases executed
      have empty := loaded.escrita k (by rw [pc]; rfl)
      have fase := loaded.inv.fase k
      rw [pc] at fase
      simp only [Fase] at fase
      cases found : s.dll.hDll with
      | none =>
          rw [found] at inv fase
          refine ⟨by simp [pc], ?_⟩
          intro seen view
          simp only [pc, Option.isSome_none, Bool.false_eq_true, if_false,
            Option.some.injEq] at view
          subst seen
          refine loaded.happens inv (by rw [pc]; rfl) (by rw [pc]; rfl) ?_
          rw [empty, fase]
          rfl
      | some biblioteca =>
          rw [found] at inv
          exact ⟨fun _ => loaded.loading inv (by rw [pc]; rfl) empty rfl, by simp [pc]⟩
  case h_5 i pc =>
      cases executed
      have empty := loaded.escrita k (by rw [pc]; rfl)
      have fase := loaded.inv.fase k
      rw [pc] at fase
      obtain ⟨place, biblioteca, table⟩ := fase
      by_cases more : i < ordem.length
      · rw [if_pos more] at inv
        rw [if_pos more]
        exact ⟨fun _ => loaded.loading inv (by rw [pc]; rfl) empty rfl, by simp [pc, more]⟩
      · rw [if_neg more] at inv
        rw [if_neg more]
        refine ⟨by simp [pc, more], ?_⟩
        intro seen view
        simp only [pc, more, if_false, Option.some.injEq] at view
        subst seen
        have all : i = ordem.length := Nat.le_antisymm place (Nat.le_of_not_lt more)
        refine loaded.happens inv (by rw [pc]; rfl) (by rw [pc]; rfl) ?_
        rw [empty, table, MQTTDll.parcial_succ biblioteca place, all, MQTTDll.parcial_length]
        rfl
  case h_6 res pc =>
      cases executed
      exact ⟨fun _ => loaded.quiet inv (by rw [pc]; rfl) (by rw [pc]; rfl), by simp [pc]⟩
  case h_7 => cases executed

theorem carga_simulates : Simulates passoDeCarga cargaAtomica vistaDeCarga Carregada where
  silent := by
    intro s t a passo loaded executed silent
    cases passo with
    | construir k =>
        have inv := loaded.inv.step executed
        simp only [passoDeCarga] at executed
        split at executed <;> cases executed
        rename_i pc
        exact loaded.quiet inv (by rw [pc]; rfl) (by rw [pc]; rfl)
    | carregar k procurada => exact (loaded.carregar executed).1 silent
    | invocar t k funcao =>
        have inv := loaded.inv.step executed
        simp only [passoDeCarga] at executed
        split at executed <;> cases executed
        exact ⟨inv, loaded.resultado, loaded.inteira, loaded.escrita⟩
    | metodo t =>
        have inv := loaded.inv.step executed
        simp only [passoDeCarga, Carga.executar] at executed
        split at executed <;> cases executed <;>
          exact ⟨inv, loaded.resultado, loaded.inteira, loaded.escrita⟩
  visible := by
    intro s t a passo seen loaded executed view
    cases passo with
    | carregar k procurada => exact (loaded.carregar executed).2 seen view
    | _ => cases view

theorem carregada_inicial : Carregada Carga.inicial (.new, fun _ => none) where
  inv := cargaInv_inicial
  resultado _ := rfl
  inteira _ := rfl
  escrita _ writing := by cases writing

end Simulation

/-- The constructors of any number of clients load the library as if one after
the other: while none of them holds `_dll_mtx` the table is the one that the
loads so far leave, and each constructor has the result of its own load. -/
theorem loads_linearise {history : List (Event Carga PassoDeCarga)} {s : Carga}
    (run : Run passoDeCarga Carga.inicial history s) :
    ∃ coarse dll results,
      Run cargaAtomica (.new, fun _ => none) coarse (dll, results) ∧
      coarse.map Event.label = seenOf vistaDeCarga history ∧
      (s.dllMtx = none → s.dll = dll) ∧
      ∀ k res, s.construtor k = .carregado res → results k = some res := by
  obtain ⟨coarse, ⟨dll, results⟩, atomic, loaded, labels⟩ :=
    carga_simulates.run run carregada_inicial
  refine ⟨coarse, dll, results, atomic, labels, ?_, ?_⟩
  · intro free
    apply (loaded.inteira ?_).symm
    intro k
    by_contra writes
    have inside := PcConstrutor.dentro_of_escreve (eq_true_of_ne_false writes)
    have held := (loaded.inv.guarda k).mp inside
    rw [free] at held
    cases held
  · intro k res done
    have result := loaded.resultado k
    rwa [done] at result

/-- A library with every symbol. -/
def bibliotecaInteira : Biblioteca where
  getProcAddress simbolo := some simbolo.length

/-- The second constructor waits for `_dll_mtx` while the first one loads. -/
def doisConstrutores : List PassoDeCarga :=
  [PassoDeCarga.construir 0, .construir 1, .carregar 0 none, .carregar 0 none,
    .carregar 0 (some bibliotecaInteira), .carregar 0 none] ++
    List.replicate 16 (PassoDeCarga.carregar 0 none) ++
    [PassoDeCarga.carregar 0 none, .carregar 1 none, .carregar 1 none, .carregar 1 none]

theorem loads_linearise_two :
    ∃ history s, Run passoDeCarga Carga.inicial history s ∧
      s.construtor 0 = .carregado true ∧ s.construtor 1 = .carregado true ∧
      ∃ coarse dll results,
        Run cargaAtomica (.new, fun _ => none) coarse (dll, results) ∧
        coarse.map Event.label = seenOf vistaDeCarga history ∧
        (s.dllMtx = none → s.dll = dll) ∧
        ∀ k res, s.construtor k = .carregado res → results k = some res := by
  obtain ⟨s, run, view⟩ := exists_run_of_execute passoDeCarga Carga.inicial doisConstrutores
    (fun s => (s.construtor 0, s.construtor 1)) (.carregado true, .carregado true) (by decide)
  simp only [Prod.mk.injEq] at view
  exact ⟨_, s, run, view.1, view.2, loads_linearise run⟩

/-! ## Methods during a load -/

/-- The constructor of the client has left its block. -/
def Carga.Construido (s : Carga) (k : Nat) : Prop :=
  ∃ res, s.construtor k = .carregado res

/-- What a method has read so far. -/
def MetodoCerto (s : Carga) : PcMetodo → Prop
  | .fora => True
  | .teste k _ | .mensagem k => s.Construido k
  | .chamada k funcao => s.Construido k ∧ ∃ endereco, s.dll.fptr funcao = some endereco
  | .retornou k funcao alvo => s.Construido k ∧
      (∀ endereco, alvo = some endereco → s.dll.fptr funcao = some endereco) ∧
      (s.construtor k = .carregado true → s.dll.fptr funcao = alvo)
  | .respondeu k alvo => s.Construido k ∧
      (alvo ≠ .defaultErrMsg → s.dll.fptrStrerror = some alvo) ∧
      (s.construtor k = .carregado true → s.dll.fptrStrerror = some alvo)
  | .nulo _ funcao => funcao = none ∧ s.dll.fptrStrerror = none

section Methods

variable {s s' : Carga} {passo : PassoDeCarga}

theorem construido_step (executed : passoDeCarga s passo = some s') {k : Nat}
    (built : s.Construido k) : s'.Construido k := by
  obtain ⟨res, loaded⟩ := built
  exact ⟨res, carregado_step executed loaded⟩

/-- A client whose load has succeeded sees the same table from then on. -/
theorem CargaInv.same_of_loaded (inv : CargaInv s) (executed : passoDeCarga s passo = some s')
    {k : Nat} (built : s.Construido k) (loaded : s'.construtor k = .carregado true) :
    s.construtor k = .carregado true ∧ s'.dll = s.dll := by
  obtain ⟨res, before⟩ := built
  rw [carregado_step executed before] at loaded
  cases loaded
  exact ⟨before, inv.final executed (k := k) (by rw [before]; rfl)⟩

/-- What a method has read stays right while the others go on. -/
theorem MetodoCerto.frame {pc : PcMetodo} (right : MetodoCerto s pc) (inv : CargaInv s)
    (executed : passoDeCarga s passo = some s') : MetodoCerto s' pc := by
  have evolui := inv.evolui executed
  cases pc with
  | fora => trivial
  | teste k funcao | mensagem k => exact construido_step executed right
  | chamada k funcao =>
      obtain ⟨built, endereco, resolved⟩ := right
      exact ⟨construido_step executed built, endereco, evolui.fptr _ _ resolved⟩
  | retornou k funcao alvo =>
      obtain ⟨built, resolved, whole⟩ := right
      refine ⟨construido_step executed built, ?_, ?_⟩
      · intro endereco called
        exact evolui.fptr _ _ (resolved endereco called)
      · intro loaded
        obtain ⟨before, same⟩ := inv.same_of_loaded executed built loaded
        rw [same]
        exact whole before
  | respondeu k alvo =>
      obtain ⟨built, exported, whole⟩ := right
      refine ⟨construido_step executed built, ?_, ?_⟩
      · intro other
        have pointer := exported other
        rw [evolui.strerror (by simp [pointer, other]), pointer]
      · intro loaded
        obtain ⟨before, same⟩ := inv.same_of_loaded executed built loaded
        rw [same]
        exact whole before
  | nulo k funcao =>
      obtain ⟨strerror, pointer⟩ := right
      exact ⟨strerror, by rw [evolui.strerror (by simp [pointer]), pointer]⟩

/-- The statement that a method executes reads the table as it is. -/
theorem metodoCerto_executar {t : Nat} (right : MetodoCerto s (s.metodo t))
    (executed : s.executar t = some s') : MetodoCerto s' (s'.metodo t) := by
  unfold Carga.executar at executed
  split at executed
  case h_1 k funcao pc =>
      cases executed
      rw [pc] at right
      simp only [Carga.seguirMetodo, Function.update_self]
      cases pointer : s.dll.fptr funcao with
      | none => exact ⟨right, by simp, fun _ => pointer⟩
      | some endereco => exact ⟨right, endereco, pointer⟩
  case h_2 k funcao pc =>
      cases executed
      rw [pc] at right
      obtain ⟨built, endereco, pointer⟩ := right
      simp only [Carga.seguirMetodo, Function.update_self, pointer]
      exact ⟨built, fun other called => by cases called; exact pointer, fun _ => pointer⟩
  case h_3 k pc =>
      cases executed
      rw [pc] at right
      simp only [Carga.seguirMetodo, Function.update_self]
      cases pointer : s.dll.fptrStrerror with
      | none => exact ⟨rfl, pointer⟩
      | some alvo => exact ⟨right, fun _ => pointer, fun _ => pointer⟩
  case h_4 => cases executed

/-- Every method has read what it should. -/
theorem metodoCerto_step (inv : CargaInv s) (right : ∀ t, MetodoCerto s (s.metodo t))
    (executed : passoDeCarga s passo = some s') (t : Nat) : MetodoCerto s' (s'.metodo t) := by
  have still := (right t).frame inv executed
  cases passo with
  | construir k =>
      simp only [passoDeCarga] at executed
      split at executed <;> cases executed
      exact still
  | carregar k procurada =>
      rw [(carregar_dll executed).1]
      exact still
  | invocar u k funcao =>
      simp only [passoDeCarga] at executed
      split at executed <;> cases executed
      rename_i res loaded fresh
      by_cases own : t = u
      · subst u
        simp only [Carga.seguirMetodo, Function.update_self]
        cases funcao <;> exact ⟨res, loaded⟩
      · simpa [Carga.seguirMetodo, own] using still
  | metodo u =>
      by_cases own : t = u
      · subst u
        exact metodoCerto_executar (right t) executed
      · have other : s'.metodo t = s.metodo t := by
          simp only [passoDeCarga, Carga.executar] at executed
          split at executed <;> cases executed <;> simp [Carga.seguirMetodo, own]
        rw [other]
        exact still

theorem metodoCerto_of_run {history : List (Event Carga PassoDeCarga)}
    (run : Run passoDeCarga Carga.inicial history s) (t : Nat) :
    MetodoCerto s (s.metodo t) := by
  have both : CargaInv s ∧ ∀ t, MetodoCerto s (s.metodo t) := by
    apply run.invariant fun s => CargaInv s ∧ ∀ t, MetodoCerto s (s.metodo t)
    · exact ⟨cargaInv_inicial, fun _ => trivial⟩
    · rintro source passo target ⟨inv, right⟩ executed
      exact ⟨inv.step executed, metodoCerto_step inv right executed⟩
  exact both.2 t

/-- The table of a client whose load has succeeded. -/
theorem CargaInv.loaded (inv : CargaInv s) {k : Nat} (loaded : s.construtor k = .carregado true) :
    ∃ biblioteca, s.dll = .de (some biblioteca) := by
  obtain ⟨found, quiet⟩ := inv.sucesso k (by rw [loaded]; rfl)
  obtain ⟨biblioteca, handle⟩ := Option.isSome_iff_exists.mp found
  refine ⟨biblioteca, ?_⟩
  rw [← handle]
  exact inv.inteira quiet

/-- Once the default message is replaced nobody writes the table any more. -/
theorem CargaInv.whole_of_strerror (inv : CargaInv s)
    (replaced : s.dll.fptrStrerror ≠ some .defaultErrMsg) :
    ∃ biblioteca, s.dll = .de (some biblioteca) := by
  have quiet : ∀ k, (s.construtor k).escreve = false := by
    intro k
    by_contra writes
    have fase := inv.fase k
    cases pc : s.construtor k with
    | loadLibrary | testCarregada =>
        rw [pc] at fase
        simp only [Fase] at fase
        rw [fase] at replaced
        exact replaced rfl
    | atribuir i =>
        rw [pc] at fase
        obtain ⟨place, biblioteca, table⟩ := fase
        simp [table, MQTTDll.parcial, place] at replaced
    | _ =>
        rw [pc] at writes
        exact writes rfl
  have table := inv.inteira quiet
  cases handle : s.dll.hDll with
  | none =>
      rw [handle] at table
      rw [table] at replaced
      exact absurd rfl replaced
  | some biblioteca => exact ⟨biblioteca, by rw [table, handle]⟩

end Methods

/-- What a method did that called the given function of the library, or none. -/
def efeitoDe {α : Type} (codigo : Codigo α) (funcao : Funcao) (args : α) :
    Option Endereco → Efeito α
  | none => ⟨none, funcao.falha⟩
  | some endereco => ⟨some (endereco, args), funcao.falha.map fun _ => codigo.int endereco args⟩

/-- What a method has to do with the table that the loads leave, while any other
constructor may be in the middle of loading. -/
def MetodoAtomico (s : Carga) : PcMetodo → Prop
  | .chamada _ funcao => s.dll.fptr funcao ≠ none
  | .retornou k funcao alvo =>
      (∀ endereco, alvo = some endereco → s.dll.fptr funcao = some endereco) ∧
      (s.construtor k = .carregado true → ∃ biblioteca, s.dll = .de (some biblioteca) ∧
        ∀ (α : Type) (codigo : Codigo α) (args : α),
          s.dll.metodo codigo funcao args = some (efeitoDe codigo funcao args alvo))
  | .respondeu k alvo =>
      (s.construtor k = .carregado false ∧ alvo = .defaultErrMsg) ∨
      ∃ biblioteca endereco, s.dll = .de (some biblioteca) ∧ alvo = .biblioteca endereco ∧
        biblioteca.getProcAddress simboloDeStrerror = some endereco
  | .nulo _ funcao => funcao = none ∧ ∃ biblioteca, s.dll = .de (some biblioteca) ∧
      biblioteca.getProcAddress simboloDeStrerror = none
  | _ => True

/-- However the methods of any number of clients are interleaved with the loads
of other constructors: a method of a client whose load succeeded does what the
whole table says, at both of its reads; a method of a client whose load failed
calls nothing but a function that the table keeps, and `strerror` of such a client
the default message or what the loaded library exports; and no method but
`strerror` ever calls through a null pointer, and that one only on a library that
does not export it. -/
theorem methods_during_loads {history : List (Event Carga PassoDeCarga)} {s : Carga}
    (run : Run passoDeCarga Carga.inicial history s) (t : Nat) :
    MetodoAtomico s (s.metodo t) := by
  have inv := cargaInv_of_run run
  have right := metodoCerto_of_run run t
  cases pc : s.metodo t with
  | chamada k funcao =>
      rw [pc] at right
      obtain ⟨_, endereco, resolved⟩ := right
      intro unresolved
      rw [resolved] at unresolved
      cases unresolved
  | retornou k funcao alvo =>
      rw [pc] at right
      obtain ⟨_, resolved, whole⟩ := right
      refine ⟨resolved, ?_⟩
      intro loaded
      obtain ⟨biblioteca, table⟩ := inv.loaded loaded
      refine ⟨biblioteca, table, ?_⟩
      intro α codigo args
      rw [MQTTDll.metodo_eq, whole loaded]
      cases alvo <;> rfl
  | respondeu k alvo =>
      rw [pc] at right
      obtain ⟨⟨res, built⟩, exported, whole⟩ := right
      cases alvo with
      | defaultErrMsg =>
          refine Or.inl ⟨?_, rfl⟩
          cases res with
          | false => exact built
          | true =>
              obtain ⟨biblioteca, table⟩ := inv.loaded built
              have pointer := whole built
              rw [table] at pointer
              obtain ⟨_, _, other⟩ := Option.map_eq_some_iff.mp pointer
              cases other
      | biblioteca endereco =>
          have pointer := exported (by simp)
          obtain ⟨biblioteca, table⟩ := inv.whole_of_strerror (by simp [pointer])
          rw [table] at pointer
          obtain ⟨other, found, same⟩ := Option.map_eq_some_iff.mp pointer
          cases same
          exact Or.inr ⟨biblioteca, endereco, table, rfl, found⟩
  | nulo k funcao =>
      rw [pc] at right
      obtain ⟨strerror, pointer⟩ := right
      obtain ⟨biblioteca, table⟩ := inv.whole_of_strerror (by simp [pointer])
      rw [table] at pointer
      exact ⟨strerror, biblioteca, table, Option.map_eq_none_iff.mp pointer⟩
  | fora | teste | mensagem => trivial

/-- The first client finds no library; while the second one loads it, the first one
calls `isConnected`, which is resolved, and `subscribe`, which is not yet. -/
def metodosDuranteCarga : List PassoDeCarga :=
  [PassoDeCarga.construir 0, .carregar 0 none, .carregar 0 none, .carregar 0 none, .carregar 0 none,
    .carregar 0 none, .construir 1, .carregar 1 none, .carregar 1 none,
    .carregar 1 (some bibliotecaInteira), .carregar 1 none] ++
    List.replicate 6 (PassoDeCarga.carregar 1 none) ++
    [PassoDeCarga.invocar 0 0 (some .isConnected), .metodo 0, .metodo 0,
      .invocar 1 0 (some .subscribe), .metodo 1]

theorem methods_during_loads_failed :
    ∃ history s, Run passoDeCarga Carga.inicial history s ∧
      s.construtor 0 = .carregado false ∧ s.construtor 1 = .atribuir 6 ∧
      s.metodo 0 = .retornou 0 .isConnected (some 21) ∧
      s.metodo 1 = .retornou 0 .subscribe none ∧
      MetodoAtomico s (s.metodo 0) ∧ MetodoAtomico s (s.metodo 1) := by
  obtain ⟨s, run, view⟩ := exists_run_of_execute passoDeCarga Carga.inicial metodosDuranteCarga
    (fun s => (s.construtor 0, s.construtor 1, s.metodo 0, s.metodo 1))
    (.carregado false, .atribuir 6, .retornou 0 .isConnected (some 21),
      .retornou 0 .subscribe none) (by decide)
  simp only [Prod.mk.injEq] at view
  obtain ⟨failed, loading, first, second⟩ := view
  exact ⟨_, s, run, failed, loading, first, second, methods_during_loads run 0,
    methods_during_loads run 1⟩

end PahoClient
