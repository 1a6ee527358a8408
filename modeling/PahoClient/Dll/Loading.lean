import PahoClient.Dll.Wrapper
import PahoClient.Transition.Run

/-!
# Loading the library from several constructors

The one wrapper of the process is loaded by the constructor of every client,
statement by statement, while `_dll_mtx` is held.  The methods read the pointers
without the mutex, and a guarded method reads its pointer twice.
-/

namespace PahoClient

open PahoClient.Transition

/-! ## The statements of `load` -/

/-- The guarded pointers in the order in which `load` assigns them; the pointer of
`strerror` is assigned last. -/
def ordem : List Funcao :=
  [.create, .destroy, .connect, .reconnect, .isConnected, .disconnect, .setCallbacks,
    .setConnected, .subscribe, .subscribeMany, .unsubscribe, .unsubscribeMany, .sendMessage,
    .freeMessage, .free]

namespace MQTTDll

/-- The assignment at one place of `load`. -/
def atribuir (dll : MQTTDll) (i : Nat) : MQTTDll :=
  match dll.hDll with
  | none => dll
  | some biblioteca =>
      match ordem[i]? with
      | some funcao =>
          { dll with
            fptr := Function.update dll.fptr funcao (biblioteca.getProcAddress funcao.simbolo) }
      | none =>
          { dll with
            fptrStrerror := (biblioteca.getProcAddress simboloDeStrerror).map .biblioteca }

/-- The wrapper after the first assignments of `load`. -/
def parcial (biblioteca : Biblioteca) (i : Nat) : MQTTDll where
  fptr funcao :=
    if funcao ∈ ordem.take i then biblioteca.getProcAddress funcao.simbolo else none
  fptrStrerror :=
    if i ≤ ordem.length then some .defaultErrMsg
    else (biblioteca.getProcAddress simboloDeStrerror).map .biblioteca
  hDll := some biblioteca

theorem mem_ordem (funcao : Funcao) : funcao ∈ ordem := by
  cases funcao <;> decide

theorem parcial_zero (biblioteca : Biblioteca) :
    parcial biblioteca 0 = { new with hDll := some biblioteca } := by
  simp [parcial, new]

theorem parcial_length (biblioteca : Biblioteca) :
    parcial biblioteca (ordem.length + 1) = .de (some biblioteca) := by
  have all : ordem.take (ordem.length + 1) = ordem := List.take_of_length_le (Nat.le_succ _)
  simp only [parcial, de, all, mem_ordem, if_true, Nat.not_succ_le_self, if_false]

theorem parcial_succ (biblioteca : Biblioteca) {i : Nat} (inside : i ≤ ordem.length) :
    (parcial biblioteca i).atribuir i = parcial biblioteca (i + 1) := by
  cases place : ordem[i]? with
  | none =>
      have last : i = ordem.length := Nat.le_antisymm inside (List.getElem?_eq_none_iff.mp place)
      subst i
      have all : ordem.take (ordem.length + 1) = ordem := List.take_of_length_le (Nat.le_succ _)
      simp [atribuir, parcial, all]
  | some funcao =>
      obtain ⟨within, _⟩ := List.getElem?_eq_some_iff.mp place
      have next : ordem.take (i + 1) = ordem.take i ++ [funcao] := by
        rw [List.take_add_one, place]
        rfl
      simp only [atribuir, parcial, place, next, inside, if_true, Nat.succ_le_of_lt within]
      congr 1
      funext other
      by_cases same : other = funcao
      · simp [same]
      · simp [same]

/-- The assignments of `load`, one after the other, give what `load` gives. -/
theorem load_eq_atribuir (biblioteca : Biblioteca) :
    ((List.range (ordem.length + 1)).foldl atribuir { new with hDll := some biblioteca }, true) =
      new.load (some biblioteca) := by
  have prefix_eq : ∀ i ≤ ordem.length + 1,
      (List.range i).foldl atribuir { new with hDll := some biblioteca } =
        parcial biblioteca i := by
    intro i
    induction i with
    | zero => exact fun _ => (parcial_zero biblioteca).symm
    | succ i ih =>
        intro inside
        rw [List.range_succ, List.foldl_append, ih (Nat.le_of_succ_le inside)]
        exact parcial_succ biblioteca (Nat.le_of_succ_le_succ inside)
  rw [prefix_eq _ (Nat.le_refl _), parcial_length]
  rfl

/-- An assignment keeps a pointer that is resolved. -/
theorem parcial_mono (biblioteca : Biblioteca) {i j : Nat} (later : i ≤ j) {funcao : Funcao}
    {endereco : Endereco} (resolved : (parcial biblioteca i).fptr funcao = some endereco) :
    (parcial biblioteca j).fptr funcao = some endereco := by
  simp only [parcial] at resolved ⊢
  split at resolved
  · rename_i member
    rw [if_pos (List.take_subset_take_left ordem later member)]
    exact resolved
  · cases resolved

end MQTTDll

/-! ## Constructors and methods -/

/-- The next statement of the constructor of a client, up to the end of the block
that holds `_dll_mtx`. -/
inductive PcConstrutor where
  | fora
  | lockDll
  | testHDll
  | loadLibrary
  | testCarregada
  | atribuir (i : Nat)
  | unlockDll (res : Bool)
  | carregado (res : Bool)
  deriving DecidableEq, Repr

/-- The next statement of a method that a thread runs for a client, and what the
method did.  A method that calls through a null pointer stays there with its
function, or with none for `strerror`. -/
inductive PcMetodo where
  | fora
  | teste (k : Nat) (funcao : Funcao)
  | chamada (k : Nat) (funcao : Funcao)
  | mensagem (k : Nat)
  | retornou (k : Nat) (funcao : Funcao) (alvo : Option Endereco)
  | respondeu (k : Nat) (alvo : Mensageiro)
  | nulo (k : Nat) (funcao : Option Funcao)
  deriving DecidableEq, Repr

/-- The static members of `MQTTClient`, the constructors and the methods. -/
structure Carga where
  dll : MQTTDll
  dllMtx : Option Nat
  construtor : Nat → PcConstrutor
  metodo : Nat → PcMetodo

/-- No client has been constructed. -/
def Carga.inicial : Carga where
  dll := .new
  dllMtx := none
  construtor _ := .fora
  metodo _ := .fora

/-- A step of a process: the constructor of the client `k` starts or executes its
next statement, for which `LoadLibrary` finds the given library; the thread `t`
enters a method for the client `k`, or `strerror` if no function is given, or
executes its next statement. -/
inductive PassoDeCarga where
  | construir (k : Nat)
  | carregar (k : Nat) (procurada : Option Biblioteca)
  | invocar (t k : Nat) (funcao : Option Funcao)
  | metodo (t : Nat)

namespace Carga

def seguir (s : Carga) (k : Nat) (pc : PcConstrutor) : Carga :=
  { s with construtor := Function.update s.construtor k pc }

def seguirMetodo (s : Carga) (t : Nat) (pc : PcMetodo) : Carga :=
  { s with metodo := Function.update s.metodo t pc }

/-- The next statement of a constructor. -/
def carregar (s : Carga) (k : Nat) (procurada : Option Biblioteca) : Option Carga :=
  match s.construtor k with
  | .lockDll =>
      if s.dllMtx = none then some ({ s with dllMtx := some k }.seguir k .testHDll) else none
  | .testHDll => some (s.seguir k (if s.dll.hDll.isSome then .unlockDll true else .loadLibrary))
  | .loadLibrary =>
      some ({ s with dll := { s.dll with hDll := procurada } }.seguir k .testCarregada)
  | .testCarregada =>
      some (s.seguir k (if s.dll.hDll.isSome then .atribuir 0 else .unlockDll false))
  | .atribuir i =>
      some ({ s with dll := s.dll.atribuir i }.seguir k
        (if i < ordem.length then .atribuir (i + 1) else .unlockDll true))
  | .unlockDll res => some ({ s with dllMtx := none }.seguir k (.carregado res))
  | _ => none

/-- The next statement of a method. -/
def executar (s : Carga) (t : Nat) : Option Carga :=
  match s.metodo t with
  | .teste k funcao =>
      some (s.seguirMetodo t
        (if (s.dll.fptr funcao).isSome then .chamada k funcao else .retornou k funcao none))
  | .chamada k funcao =>
      some (s.seguirMetodo t
        (match s.dll.fptr funcao with
        | some endereco => .retornou k funcao (some endereco)
        | none => .nulo k (some funcao)))
  | .mensagem k =>
      some (s.seguirMetodo t
        (match s.dll.fptrStrerror with
        | some alvo => .respondeu k alvo
        | none => .nulo k none))
  | _ => none

end Carga

/-- One step of the constructors and methods of a process. -/
def passoDeCarga : Step Carga PassoDeCarga
  | s, .construir k => if s.construtor k = .fora then some (s.seguir k .lockDll) else none
  | s, .carregar k procurada => s.carregar k procurada
  | s, .invocar t k funcao =>
      match s.construtor k, s.metodo t with
      | .carregado _, .fora =>
          some (s.seguirMetodo t
            (match funcao with
            | some funcao => .teste k funcao
            | none => .mensagem k))
      | _, _ => none
  | s, .metodo t => s.executar t

/-! ## Who loads -/

namespace PcConstrutor

/-- The constructor holds `_dll_mtx`. -/
def dentro : PcConstrutor → Bool
  | testHDll | loadLibrary | testCarregada | atribuir _ | unlockDll _ => true
  | fora | lockDll | carregado _ => false

/-- The constructor found no library and is loading it. -/
def escreve : PcConstrutor → Bool
  | loadLibrary | testCarregada | atribuir _ => true
  | fora | lockDll | testHDll | unlockDll _ | carregado _ => false

/-- `load` returned `true`. -/
def sucesso : PcConstrutor → Bool
  | unlockDll res | carregado res => res
  | _ => false

theorem dentro_of_escreve {pc : PcConstrutor} (writes : pc.escreve = true) :
    pc.dentro = true := by
  cases pc <;> simp_all [escreve, dentro]

theorem reads_of_sucesso {pc : PcConstrutor} (succeeded : pc.sucesso = true) :
    pc.escreve = false := by
  cases pc with
  | loadLibrary | testCarregada | atribuir => cases succeeded
  | _ => rfl

end PcConstrutor

/-- What the table contains while a constructor loads it. -/
def Fase (dll : MQTTDll) : PcConstrutor → Prop
  | .loadLibrary => dll = .new
  | .testCarregada => dll = { MQTTDll.new with hDll := dll.hDll }
  | .atribuir i => i ≤ ordem.length ∧ ∃ biblioteca, dll = .parcial biblioteca i
  | _ => True

theorem fase_of_not_escreve {pc : PcConstrutor} (reads : pc.escreve = false) (dll : MQTTDll) :
    Fase dll pc := by
  cases pc with
  | loadLibrary | testCarregada | atribuir => cases reads
  | _ => trivial

/-- The invariant of the constructors. -/
structure CargaInv (s : Carga) : Prop where
  guarda : ∀ k, (s.construtor k).dentro = true ↔ s.dllMtx = some k
  inteira : (∀ k, (s.construtor k).escreve = false) → s.dll = .de s.dll.hDll
  fase : ∀ k, Fase s.dll (s.construtor k)
  sucesso : ∀ k, (s.construtor k).sucesso = true →
    s.dll.hDll.isSome = true ∧ ∀ j, (s.construtor j).escreve = false

theorem cargaInv_inicial : CargaInv Carga.inicial where
  guarda k := by simp [Carga.inicial, PcConstrutor.dentro]
  inteira _ := rfl
  fase _ := trivial
  sucesso k succeeded := by cases succeeded

section Constructors

variable {s t : Carga} {k : Nat} {pc : PcConstrutor} {dll : MQTTDll}

/-- One constructor at a time holds `_dll_mtx`. -/
theorem CargaInv.alone (inv : CargaInv s) {j : Nat} (inside : (s.construtor k).dentro = true)
    (other : j ≠ k) : (s.construtor j).dentro = false := by
  by_contra both
  have holds := (inv.guarda k).mp inside
  have held := (inv.guarda j).mp (eq_true_of_ne_false both)
  rw [holds] at held
  exact other (Option.some.inj held).symm

theorem CargaInv.alone_escreve (inv : CargaInv s) {j : Nat}
    (inside : (s.construtor k).dentro = true) (other : j ≠ k) :
    (s.construtor j).escreve = false := by
  by_contra writes
  have outside := inv.alone inside other
  rw [PcConstrutor.dentro_of_escreve (eq_true_of_ne_false writes)] at outside
  cases outside

/-- A statement of the constructor that holds `_dll_mtx`. -/
theorem CargaInv.held (inv : CargaInv s) (dll : MQTTDll) (inside : (s.construtor k).dentro = true)
    (stays : pc.dentro = true) (fase : Fase dll pc)
    (inteira : pc.escreve = false → dll = .de dll.hDll)
    (sucesso : pc.sucesso = true → dll.hDll.isSome = true)
    (outros : ∀ j, j ≠ k → (s.construtor j).sucesso = true →
      dll.hDll.isSome = true ∧ pc.escreve = false) :
    CargaInv ({ s with dll := dll }.seguir k pc) where
  guarda j := by
    by_cases own : j = k
    · subst j
      simp [Carga.seguir, stays, (inv.guarda k).mp inside]
    · simpa [Carga.seguir, own] using inv.guarda j
  inteira quiet := by
    have own := quiet k
    simp only [Carga.seguir, Function.update_self] at own
    exact inteira own
  fase j := by
    by_cases own : j = k
    · subst j
      simpa [Carga.seguir] using fase
    · simp only [Carga.seguir, Function.update_of_ne own]
      exact fase_of_not_escreve (inv.alone_escreve inside own) dll
  sucesso j succeeded := by
    have quiet : ∀ i, i ≠ k → (s.construtor i).escreve = false :=
      fun i other => inv.alone_escreve inside other
    have both : dll.hDll.isSome = true ∧ pc.escreve = false := by
      by_cases own : j = k
      · subst j
        simp only [Carga.seguir, Function.update_self] at succeeded
        exact ⟨sucesso succeeded, PcConstrutor.reads_of_sucesso succeeded⟩
      · simp only [Carga.seguir, Function.update_of_ne own] at succeeded
        exact outros j own succeeded
    refine ⟨both.1, ?_⟩
    intro i
    by_cases own : i = k
    · subst i
      simpa [Carga.seguir] using both.2
    · simpa [Carga.seguir, own] using quiet i own

/-- A statement that neither reads nor writes the table. -/
theorem CargaInv.outside (inv : CargaInv s) {mutex : Option Nat}
    (reads : (s.construtor k).escreve = false) (readsAfter : pc.escreve = false)
    (guarda : ∀ j, (Function.update s.construtor k pc j).dentro = true ↔ mutex = some j)
    (sucesso : pc.sucesso = true → (s.construtor k).sucesso = true) :
    CargaInv ({ s with dllMtx := mutex }.seguir k pc) where
  guarda := guarda
  inteira quiet := by
    apply inv.inteira
    intro j
    by_cases own : j = k
    · subst j
      exact reads
    · simpa [Carga.seguir, own] using quiet j
  fase j := by
    by_cases own : j = k
    · subst j
      simpa [Carga.seguir] using fase_of_not_escreve readsAfter s.dll
    · simpa [Carga.seguir, own] using inv.fase j
  sucesso j succeeded := by
    have before : ∃ i, (s.construtor i).sucesso = true := by
      by_cases own : j = k
      · subst j
        exact ⟨k, sucesso (by simpa [Carga.seguir] using succeeded)⟩
      · exact ⟨j, by simpa [Carga.seguir, own] using succeeded⟩
    obtain ⟨i, earlier⟩ := before
    obtain ⟨found, quiet⟩ := inv.sucesso i earlier
    refine ⟨found, ?_⟩
    intro l
    by_cases own : l = k
    · subst l
      simpa [Carga.seguir] using readsAfter
    · simpa [Carga.seguir, own] using quiet l

/-- A constructor that loads is the first: no load has succeeded. -/
theorem CargaInv.first (inv : CargaInv s) (writes : (s.construtor k).escreve = true) {j : Nat}
    (succeeded : (s.construtor j).sucesso = true) : False := by
  rw [(inv.sucesso j succeeded).2 k] at writes
  cases writes

/-- While a constructor is about to test the handle, nobody writes the table. -/
theorem CargaInv.whole_of_dentro (inv : CargaInv s) (inside : (s.construtor k).dentro = true)
    (reads : (s.construtor k).escreve = false) : s.dll = .de s.dll.hDll := by
  apply inv.inteira
  intro j
  by_cases own : j = k
  · subst j
    exact reads
  · exact inv.alone_escreve inside own

theorem CargaInv.carregar (inv : CargaInv s) {procurada : Option Biblioteca}
    (executed : s.carregar k procurada = some t) : CargaInv t := by
  unfold Carga.carregar at executed
  split at executed
  case h_1 pc =>
      split at executed <;> cases executed
      rename_i free
      refine inv.outside (by rw [pc]; rfl) rfl ?_ (by simp [PcConstrutor.sucesso])
      intro j
      by_cases own : j = k
      · subst j
        simp [PcConstrutor.dentro]
      · have before := inv.guarda j
        rw [free] at before
        simpa [own, Ne.symm own] using before
  case h_2 pc =>
      cases executed
      have inside : (s.construtor k).dentro = true := by rw [pc]; rfl
      have whole := inv.whole_of_dentro inside (by rw [pc]; rfl)
      cases found : s.dll.hDll with
      | none =>
          rw [found] at whole
          refine inv.held s.dll inside rfl whole (by simp [PcConstrutor.escreve])
            (by simp [PcConstrutor.sucesso]) ?_
          intro j _ succeeded
          have earlier := (inv.sucesso j succeeded).1
          rw [found] at earlier
          cases earlier
      | some biblioteca =>
          rw [found] at whole
          refine inv.held s.dll inside rfl trivial ?_ (by simp [found])
            (by simp [found, PcConstrutor.escreve])
          intro _
          rw [found]
          exact whole
  case h_3 pc =>
      cases executed
      have inside : (s.construtor k).dentro = true := by rw [pc]; rfl
      have fase := inv.fase k
      rw [pc] at fase
      refine inv.held _ inside rfl ?_ (by simp [PcConstrutor.escreve])
        (by simp [PcConstrutor.sucesso]) ?_
      · simp only [Fase] at fase ⊢
        rw [fase]
      · intro j _ succeeded
        exact (inv.first (k := k) (by rw [pc]; rfl) succeeded).elim
  case h_4 pc =>
      cases executed
      have inside : (s.construtor k).dentro = true := by rw [pc]; rfl
      have fase := inv.fase k
      rw [pc] at fase
      have noSuccess : ∀ j, j ≠ k → (s.construtor j).sucesso = true → False :=
        fun j _ succeeded => inv.first (k := k) (by rw [pc]; rfl) succeeded
      simp only [Fase] at fase
      cases found : s.dll.hDll with
      | none =>
          rw [found] at fase
          refine inv.held s.dll inside rfl trivial ?_ (by simp [PcConstrutor.sucesso])
            fun j other succeeded => (noSuccess j other succeeded).elim
          intro _
          rw [found]
          exact fase
      | some biblioteca =>
          rw [found] at fase
          refine inv.held s.dll inside rfl ?_ (by simp [PcConstrutor.escreve])
            (by simp [PcConstrutor.sucesso])
            fun j other succeeded => (noSuccess j other succeeded).elim
          exact ⟨Nat.zero_le _, biblioteca, fase.trans (MQTTDll.parcial_zero biblioteca).symm⟩
  case h_5 i pc =>
      cases executed
      have inside : (s.construtor k).dentro = true := by rw [pc]; rfl
      have fase := inv.fase k
      rw [pc] at fase
      obtain ⟨place, biblioteca, table⟩ := fase
      have next : s.dll.atribuir i = .parcial biblioteca (i + 1) := by
        rw [table, MQTTDll.parcial_succ biblioteca place]
      rw [next]
      have noSuccess : ∀ j, j ≠ k → (s.construtor j).sucesso = true → False :=
        fun j _ succeeded => inv.first (k := k) (by rw [pc]; rfl) succeeded
      split
      · rename_i more
        exact inv.held _ inside rfl ⟨more, biblioteca, rfl⟩ (by simp [PcConstrutor.escreve])
          (by simp [PcConstrutor.sucesso])
          fun j other succeeded => (noSuccess j other succeeded).elim
      · rename_i last
        have all : i = ordem.length := Nat.le_antisymm place (Nat.le_of_not_lt last)
        rw [all, MQTTDll.parcial_length]
        exact inv.held _ inside rfl trivial (fun _ => rfl) (fun _ => rfl)
          fun j other succeeded => (noSuccess j other succeeded).elim
  case h_6 res pc =>
      cases executed
      refine inv.outside (by rw [pc]; rfl) rfl ?_ (by simp [pc, PcConstrutor.sucesso])
      intro j
      by_cases own : j = k
      · subst j
        simp [PcConstrutor.dentro]
      · have alone := inv.alone (k := k) (by rw [pc]; rfl) own
        simp [own, alone]
  case h_7 => cases executed

theorem CargaInv.step (inv : CargaInv s) {passo : PassoDeCarga}
    (executed : passoDeCarga s passo = some t) : CargaInv t := by
  cases passo with
  | construir k =>
      simp only [passoDeCarga] at executed
      split at executed <;> cases executed
      rename_i pc
      refine inv.outside (by rw [pc]; rfl) rfl ?_ (by simp [PcConstrutor.sucesso])
      intro j
      have before := inv.guarda j
      by_cases own : j = k
      · subst j
        rw [pc] at before
        simpa [PcConstrutor.dentro] using before
      · simpa [own] using before
  | carregar k procurada => exact inv.carregar executed
  | invocar t k funcao =>
      simp only [passoDeCarga] at executed
      split at executed <;> cases executed
      exact ⟨inv.guarda, inv.inteira, inv.fase, inv.sucesso⟩
  | metodo t =>
      simp only [passoDeCarga, Carga.executar] at executed
      split at executed <;> cases executed <;>
        exact ⟨inv.guarda, inv.inteira, inv.fase, inv.sucesso⟩

/-! ## How the table changes -/

/-- A constructor changes the table when it stores the handle or a pointer. -/
theorem carregar_dll {procurada : Option Biblioteca}
    (executed : s.carregar k procurada = some t) :
    t.metodo = s.metodo ∧
      (t.dll = s.dll ∨
        s.construtor k = .loadLibrary ∧ t.dll = { s.dll with hDll := procurada } ∨
        ∃ i, s.construtor k = .atribuir i ∧ t.dll = s.dll.atribuir i) := by
  unfold Carga.carregar at executed
  split at executed
  case h_1 =>
      split at executed <;> cases executed
      exact ⟨rfl, Or.inl rfl⟩
  case h_3 pc =>
      cases executed
      exact ⟨rfl, Or.inr (Or.inl ⟨pc, rfl⟩)⟩
  case h_5 i pc =>
      cases executed
      exact ⟨rfl, Or.inr (Or.inr ⟨i, pc, rfl⟩)⟩
  case h_2 | h_4 | h_6 =>
      cases executed
      exact ⟨rfl, Or.inl rfl⟩
  case h_7 => cases executed

/-- What a later table keeps of an earlier one. -/
structure Evolui (dll dll' : MQTTDll) : Prop where
  fptr : ∀ funcao endereco, dll.fptr funcao = some endereco → dll'.fptr funcao = some endereco
  strerror : dll.fptrStrerror ≠ some .defaultErrMsg → dll'.fptrStrerror = dll.fptrStrerror

theorem Evolui.refl (dll : MQTTDll) : Evolui dll dll :=
  ⟨fun _ _ resolved => resolved, fun _ => rfl⟩

theorem evolui_parcial (biblioteca : Biblioteca) {i : Nat} (place : i ≤ ordem.length) :
    Evolui (.parcial biblioteca i) (.parcial biblioteca (i + 1)) where
  fptr funcao endereco := MQTTDll.parcial_mono biblioteca (Nat.le_succ i)
  strerror replaced := by simp [MQTTDll.parcial, place] at replaced

theorem CargaInv.evolui (inv : CargaInv s) {passo : PassoDeCarga}
    (executed : passoDeCarga s passo = some t) : Evolui s.dll t.dll := by
  cases passo with
  | carregar k procurada =>
      rcases (carregar_dll executed).2 with same | ⟨pc, table⟩ | ⟨i, pc, table⟩
      · rw [same]
        exact .refl _
      · rw [table]
        exact ⟨fun _ _ resolved => resolved, fun _ => rfl⟩
      · have fase := inv.fase k
        rw [pc] at fase
        obtain ⟨place, biblioteca, before⟩ := fase
        rw [table, before, MQTTDll.parcial_succ biblioteca place]
        exact evolui_parcial biblioteca place
  | construir k =>
      simp only [passoDeCarga] at executed
      split at executed <;> cases executed
      exact .refl _
  | invocar t k funcao =>
      simp only [passoDeCarga] at executed
      split at executed <;> cases executed
      exact .refl _
  | metodo t =>
      simp only [passoDeCarga, Carga.executar] at executed
      split at executed <;> cases executed <;> exact .refl _

/-- After a successful load the table does not change any more. -/
theorem CargaInv.final (inv : CargaInv s) {passo : PassoDeCarga}
    (executed : passoDeCarga s passo = some t) (succeeded : (s.construtor k).sucesso = true) :
    t.dll = s.dll := by
  cases passo with
  | carregar j procurada =>
      have quiet := (inv.sucesso k succeeded).2 j
      rcases (carregar_dll executed).2 with same | ⟨pc, _⟩ | ⟨i, pc, _⟩
      · exact same
      · rw [pc] at quiet
        cases quiet
      · rw [pc] at quiet
        cases quiet
  | construir k =>
      simp only [passoDeCarga] at executed
      split at executed <;> cases executed
      rfl
  | invocar t k funcao =>
      simp only [passoDeCarga] at executed
      split at executed <;> cases executed
      rfl
  | metodo t =>
      simp only [passoDeCarga, Carga.executar] at executed
      split at executed <;> cases executed <;> rfl

/-- A constructor that has left the block executes no further statement of it. -/
theorem carregado_step {passo : PassoDeCarga} (executed : passoDeCarga s passo = some t)
    {res : Bool} (loaded : s.construtor k = .carregado res) : t.construtor k = .carregado res := by
  cases passo with
  | construir j =>
      simp only [passoDeCarga] at executed
      split at executed <;> cases executed
      rename_i pc
      have other : k ≠ j := by
        rintro rfl
        rw [loaded] at pc
        cases pc
      simpa [Carga.seguir, other] using loaded
  | carregar j procurada =>
      have other : k ≠ j := by
        rintro rfl
        simp [passoDeCarga, Carga.carregar, loaded] at executed
      simp only [passoDeCarga, Carga.carregar] at executed
      split at executed
      case h_1 =>
          split at executed <;> cases executed
          simpa [Carga.seguir, other] using loaded
      case h_7 => cases executed
      all_goals
        cases executed
        simpa [Carga.seguir, other] using loaded
  | invocar t k funcao =>
      simp only [passoDeCarga] at executed
      split at executed <;> cases executed
      exact loaded
  | metodo t =>
      simp only [passoDeCarga, Carga.executar] at executed
      split at executed <;> cases executed <;> exact loaded

end Constructors

theorem cargaInv_of_run {history : List (Event Carga PassoDeCarga)} {s : Carga}
    (run : Run passoDeCarga Carga.inicial history s) : CargaInv s :=
  run.invariant CargaInv cargaInv_inicial fun _ _ _ inv executed => inv.step executed

end PahoClient
