import PahoClient.Client.Budget
import PahoClient.Transition.Simulation

/-!
# Connecting and disconnecting, one call after the other

A connect or disconnect call takes effect in one of its own steps or when the
library finishes its command.  Seen at these moments the calls of all threads
are calls of a connection that is set up and closed atomically.
-/

namespace PahoClient

open PahoClient.Transition

/-! ## The atomic connection -/

/-- The connection and the results of the calls that have taken effect. -/
structure Conexao where
  conectado : Bool
  resultado : CallId → Option Bool

/-- A call takes effect with its result, or the network acts on its own. -/
inductive EfeitoAtomico where
  | chamada (c : CallId) (res : Bool)
  | rede (conectado : Bool)
  deriving DecidableEq, Repr

/-- The state of the connection that an operation asks for. -/
def Operation.pede : Operation → Bool
  | conectar => true
  | desconectar | subscribe _ | unsubscribe _ => false

/-- A call that returns `true` brings the connection into the state it asks for,
and one that returns `false` leaves it alone. -/
def conexaoAtomica (program : Program) : Step Conexao EfeitoAtomico
  | s, .chamada c res =>
      if (program.op c).usesConexao = true ∧ s.resultado c = none then
        some ⟨if res then (program.op c).pede else s.conectado,
          Function.update s.resultado c (some res)⟩
      else
        none
  | s, .rede conectado => some { s with conectado := conectado }

/-! ## When a call takes effect -/

/-- The effect of a statement of a connect or disconnect call. -/
def efeitoDaChamada (op : Operation) (c : CallId) (ret : Int) (s : State) : Option EfeitoAtomico :=
  match op, s.pc c with
  | .conectar, .testConectado => if s.conectado then some (.chamada c true) else none
  | .desconectar, .testConectado => if s.conectado then none else some (.chamada c true)
  | .conectar, .setCallbacks | .conectar, .command | .desconectar, .command =>
      if ret = MQTTASYNC_SUCCESS then none else some (.chamada c false)
  | _, _ => none

/-- A call takes effect at a test that ends it, at the error of a library
function, or when its command is finished. -/
def efeitoAtomico (program : Program) : View State Label EfeitoAtomico
  | s, .call c ret => efeitoDaChamada (program.op c) c ret s
  | _, .complete c res =>
      if (program.op c).usesConexao then some (.chamada c ((program.op c).outcome res)) else none
  | _, .network conectado => some (.rede conectado)
  | _, _ => none

/-- The result of a call that has taken effect. -/
def decidido (op : Operation) (pc : Pc) (request : Request) : Option Bool :=
  if op.usesConexao then
    match pc with
    | .unlockConexao res | .returned res => some res
    | _ => request.completion.map op.outcome
  else none

/-- The atomic connection is the real one, and has the results of the calls that
have taken effect. -/
structure Atomica (program : Program) (s : State) (a : Conexao) : Prop where
  inv : Inv program s
  conectado : a.conectado = s.conectado
  resultado : ∀ c, a.resultado c = decidido (program.op c) (s.pc c) (s.request c)

section Steps

variable {program : Program} {s t : State} {a : Conexao} {c : CallId} {ret : Int} {label : Label}

/-- Before the release of `_conexao_mtx` the result of a call is that of its command. -/
theorem decidido_of_open {op : Operation} {pc : Pc} (uses : op.usesConexao = true)
    (unlocked : ∀ res, pc ≠ .unlockConexao res) (inside : ∀ res, pc ≠ .returned res)
    (request : Request) : decidido op pc request = request.completion.map op.outcome := by
  unfold decidido
  rw [if_pos uses]
  split
  · exact absurd rfl (unlocked _)
  · exact absurd rfl (inside _)
  · rfl

theorem decidido_of_inFrame {op : Operation} {pc : Pc} (uses : op.usesConexao = true)
    (frame : pc.inFrame = true) (request : Request) :
    decidido op pc request = request.completion.map op.outcome := by
  refine decidido_of_open uses ?_ ?_ request
  · rintro res rfl
    cases frame
  · rintro res rfl
    cases frame

theorem decidido_of_unissued {op : Operation} {pc : Pc}
    (unlocked : ∀ res, pc ≠ .unlockConexao res) (inside : ∀ res, pc ≠ .returned res) :
    decidido op pc .unissued = none := by
  cases uses : op.usesConexao with
  | true => exact decidido_of_open uses unlocked inside _
  | false => simp [decidido, uses]

/-- Inside `esperar` the result of a call does not change, and the call leaves
with it. -/
theorem decidido_waitNext (inv : Inv program s) (uses : (program.op c).usesConexao = true)
    (frame : (s.pc c).inFrame = true) (x : Contexto) :
    decidido (program.op c) (waitNext .unlockConexao x (s.pc c)) (s.request c) =
      decidido (program.op c) (s.pc c) (s.request c) := by
  have progress := inv.progress c
  rw [decidido_of_inFrame uses frame]
  cases pc : s.pc c with
  | waitLock | waiting => exact decidido_of_inFrame uses rfl _
  | waitTest =>
      simp only [waitNext]
      split <;> exact decidido_of_inFrame uses rfl _
  | waitUnlock value =>
      rw [pc] at progress
      obtain ⟨res, done, rfl⟩ := progress
      rw [done]
      simp [waitNext, decidido, uses, Request.completion]
  | _ =>
      rw [pc] at frame
      cases frame

/-- What a statement of a call does to its result: it leaves it open or known, or
decides it for the connection that it finds. -/
structure Decide (op : Operation) (c : CallId) (ret : Int) (s : State) (res : Bool)
    (antes depois : Option Bool) : Prop where
  efeito : efeitoDaChamada op c ret s = some (.chamada c res)
  aberto : antes = none
  fixado : depois = some res
  pedido : res = true → s.conectado = op.pede

/-- A statement that rejects the command, or the callbacks, decides the call. -/
theorem decide_ret {op : Operation} {ret : Int} {pc : Pc} {request : Request}
    (view : efeitoDaChamada op c ret s =
      if ret = MQTTASYNC_SUCCESS then none else some (.chamada c false))
    (uses : op.usesConexao = true) (aberto : decidido op (s.pc c) (s.request c) = none)
    (rejected : ret ≠ MQTTASYNC_SUCCESS → pc = .unlockConexao false)
    (accepted : ret = MQTTASYNC_SUCCESS → decidido op pc request = none) :
    (efeitoDaChamada op c ret s = none ∧
        decidido op pc request = decidido op (s.pc c) (s.request c)) ∨
      ∃ res, Decide op c ret s res (decidido op (s.pc c) (s.request c))
        (decidido op pc request) := by
  by_cases success : ret = MQTTASYNC_SUCCESS
  · exact Or.inl ⟨by rw [view, if_pos success], by rw [accepted success, aberto]⟩
  · rw [if_neg success] at view
    refine Or.inr ⟨false, view, aberto, ?_, by simp⟩
    rw [rejected success]
    simp [decidido, uses]

/-- A statement of a connect or disconnect call leaves its result as it is or
decides it. -/
theorem decidido_call (inv : Inv program s) (executed : step program s (.call c ret) = some t)
    {op : Operation} (opEq : program.op c = op) (uses : op.usesConexao = true) :
    (efeitoDaChamada op c ret s = none ∧
        decidido op (t.pc c) (t.request c) = decidido op (s.pc c) (s.request c)) ∨
      ∃ res, Decide op c ret s res (decidido op (s.pc c) (s.request c))
        (decidido op (t.pc c) (t.request c)) := by
  have next := pc_of_call executed
  have request := request_of_call executed
  have progress := inv.progress c
  have enabled : despachar op c ret s = some t := by rw [← opEq]; exact executed
  have waits := fun frame => decidido_waitNext inv (by rw [opEq]; exact uses) frame
    (s.contexto (contextOf op c))
  rw [opEq] at next progress waits
  rw [next, request]
  cases pc : s.pc c with
  | lockConexao =>
      rw [pc] at progress
      rw [show s.request c = .unissued from progress]
      refine Or.inl ⟨?_, ?_⟩ <;> cases op <;>
        simp_all [efeitoDaChamada, callNext, decidido, Operation.usesConexao]
  | testConectado =>
      rw [pc] at progress
      rw [show s.request c = .unissued from progress]
      cases op with
      | conectar =>
          cases connected : s.conectado with
          | true =>
              refine Or.inr ⟨true, ?_, rfl, ?_, fun _ => connected⟩
              · simp [efeitoDaChamada, pc, connected]
              · simp [callNext, pc, connected, decidido, Operation.usesConexao]
          | false =>
              refine Or.inl ⟨by simp [efeitoDaChamada, pc, connected], ?_⟩
              cases first : s.primeiraTentativa <;>
                simp [callNext, pc, connected, first, decidido]
      | desconectar =>
          cases connected : s.conectado with
          | true =>
              refine Or.inl ⟨by simp [efeitoDaChamada, pc, connected], ?_⟩
              simp [callNext, pc, connected, decidido]
          | false =>
              refine Or.inr ⟨true, ?_, rfl, ?_, fun _ => connected⟩
              · simp [efeitoDaChamada, pc, connected]
              · simp [callNext, pc, connected, decidido, Operation.usesConexao]
      | subscribe | unsubscribe => cases uses
  | setCallbacks =>
      rw [pc] at progress
      have unissued : s.request c = .unissued := progress
      cases op with
      | conectar =>
          rw [← pc]
          apply decide_ret
          · simp [efeitoDaChamada, pc]
          · rfl
          · rw [pc, unissued]
            rfl
          · intro failure
            simp [callNext, pc, failure]
          · intro success
            simp [callNext, pc, success, unissued, decidido, Request.completion]
      | desconectar =>
          simp [despachar, Disconnect.despachar, Contexto.esperar, pc] at enabled
      | subscribe | unsubscribe => cases uses
  | command =>
      rw [pc] at progress
      have unissued : s.request c = .unissued := progress
      rw [← pc]
      apply decide_ret
      · cases op <;> simp_all [efeitoDaChamada, Operation.usesConexao]
      · exact uses
      · rw [pc, unissued]
        exact decidido_of_unissued (by simp) (by simp)
      · intro failure
        cases op with
        | conectar | desconectar => simp [callNext, pc, failure]
        | subscribe | unsubscribe => cases uses
      · intro success
        cases op with
        | conectar | desconectar =>
            simp [callNext, pc, success, decidido, Request.completion]
        | subscribe | unsubscribe => cases uses
  | waitLock | waitTest | waiting | waitUnlock =>
      have still := waits (by rw [pc]; rfl)
      refine Or.inl ⟨by cases op <;> simp [efeitoDaChamada, pc], ?_⟩
      rw [← pc, ← still]
      cases op with
      | conectar | desconectar => simp [callNext, contextOf, pc]
      | subscribe | unsubscribe => cases uses
  | unlockConexao res =>
      refine Or.inl ⟨by cases op <;> simp [efeitoDaChamada, pc], ?_⟩
      cases op with
      | conectar | desconectar => simp [callNext, decidido, pc]
      | subscribe | unsubscribe => cases uses
  | idle | testVazio | acquire | loop | release | returned =>
      cases op with
      | conectar => simp [despachar, Connect.despachar, Contexto.esperar, pc] at enabled
      | desconectar => simp [despachar, Disconnect.despachar, Contexto.esperar, pc] at enabled
      | subscribe | unsubscribe => cases uses

/-- Only connect and disconnect calls have effects of their own. -/
theorem efeitoDaChamada_of_not_usesConexao {op : Operation} (uses : op.usesConexao = false) :
    efeitoDaChamada op c ret s = none := by
  cases op with
  | conectar | desconectar => cases uses
  | subscribe | unsubscribe => rfl

theorem decidido_of_not_usesConexao {op : Operation} (uses : op.usesConexao = false) (pc : Pc)
    (request : Request) : decidido op pc request = none := by
  simp [decidido, uses]

/-- The results stay when the step changes neither positions nor completions. -/
theorem Atomica.silent (atomica : Atomica program s a)
    (executed : PahoClient.step program s label = some t) (conectado : t.conectado = s.conectado)
    (results : ∀ c, decidido (program.op c) (t.pc c) (t.request c) =
      decidido (program.op c) (s.pc c) (s.request c)) : Atomica program t a where
  inv := atomica.inv.step executed
  conectado := atomica.conectado.trans conectado.symm
  resultado c := (atomica.resultado c).trans (results c).symm

/-- The result of one call is decided, for the connection that it leaves. -/
theorem Atomica.visible (atomica : Atomica program s a)
    (executed : PahoClient.step program s label = some t) {c : CallId} {res : Bool}
    (uses : (program.op c).usesConexao = true)
    (conectado : t.conectado = if res then (program.op c).pede else s.conectado)
    (aberto : decidido (program.op c) (s.pc c) (s.request c) = none)
    (fixado : decidido (program.op c) (t.pc c) (t.request c) = some res)
    (others : ∀ d, d ≠ c → decidido (program.op d) (t.pc d) (t.request d) =
      decidido (program.op d) (s.pc d) (s.request d)) :
    ∃ b, conexaoAtomica program a (.chamada c res) = some b ∧ Atomica program t b := by
  have open_ : a.resultado c = none := (atomica.resultado c).trans aberto
  refine ⟨⟨if res then (program.op c).pede else a.conectado,
    Function.update a.resultado c (some res)⟩, ?_, ?_⟩
  · simp [conexaoAtomica, uses, open_]
  · refine ⟨atomica.inv.step executed, ?_, ?_⟩
    · rw [conectado, atomica.conectado]
    · intro d
      by_cases own : d = c
      · subst d
        rw [fixado]
        exact Function.update_self ..
      · rw [others d own, ← atomica.resultado d]
        exact Function.update_of_ne own ..

/-! ## The simulation -/

/-- A step on behalf of one call keeps the results of the others. -/
theorem decidido_other (executed : PahoClient.step program s label = some t)
    (own : label.tarefa = some (.inl c)) {d : CallId} (other : d ≠ c) :
    decidido (program.op d) (t.pc d) (t.request d) =
      decidido (program.op d) (s.pc d) (s.request d) := by
  have elsewhere : label.tarefa ≠ some (.inl d) := by
    rw [own]
    simpa using other.symm
  obtain ⟨pc, request⟩ := same_of_other executed elsewhere
  rw [pc, request]

/-- The library's report of a completion keeps the results. -/
theorem decidido_of_completion {d : CallId} (pc : t.pc = s.pc)
    (completion : (t.request d).completion = (s.request d).completion) :
    decidido (program.op d) (t.pc d) (t.request d) =
      decidido (program.op d) (s.pc d) (s.request d) := by
  simp only [decidido, pc, completion]

/-- A finished command leaves the connection that the call asks for, or, when it
has failed, the one it found. -/
theorem conectadoAfter_eq {op : Operation} (uses : op.usesConexao = true) (res : Completion)
    (conectado : Bool) :
    conectadoAfter op res conectado = if op.outcome res then op.pede else conectado := by
  cases op with
  | conectar | desconectar => cases res <;> rfl
  | subscribe | unsubscribe => cases uses

theorem Atomica.call_silent (atomica : Atomica program s a)
    (executed : PahoClient.step program s (.call c ret) = some t)
    (hidden : efeitoDaChamada (program.op c) c ret s = none) : Atomica program t a := by
  refine atomica.silent executed (despachar_effect executed).conectado ?_
  intro d
  by_cases own : d = c
  · subst d
    cases uses : (program.op c).usesConexao with
    | false => rw [decidido_of_not_usesConexao uses, decidido_of_not_usesConexao uses]
    | true =>
        rcases decidido_call atomica.inv executed rfl uses with ⟨_, same⟩ | ⟨res, decides⟩
        · exact same
        · have seen := decides.efeito
          rw [hidden] at seen
          cases seen
  · exact decidido_other executed rfl own

theorem Atomica.call_visible (atomica : Atomica program s a)
    (executed : PahoClient.step program s (.call c ret) = some t) {visto : EfeitoAtomico}
    (view : efeitoDaChamada (program.op c) c ret s = some visto) :
    ∃ b, conexaoAtomica program a visto = some b ∧ Atomica program t b := by
  cases uses : (program.op c).usesConexao with
  | false =>
      rw [efeitoDaChamada_of_not_usesConexao uses] at view
      cases view
  | true =>
      rcases decidido_call atomica.inv executed rfl uses with ⟨hidden, _⟩ | ⟨res, decides⟩
      · rw [hidden] at view
        cases view
      · rw [decides.efeito] at view
        cases view
        apply atomica.visible executed uses _ decides.aberto decides.fixado
        · intro d own
          exact decidido_other executed rfl own
        · rw [(despachar_effect executed).conectado]
          cases res with
          | true => exact decides.pedido rfl
          | false => rfl

theorem Atomica.complete (atomica : Atomica program s a) {res : Completion}
    (executed : PahoClient.step program s (.complete c res) = some t) :
    if (program.op c).usesConexao then
      ∃ b, conexaoAtomica program a (.chamada c ((program.op c).outcome res)) = some b ∧
        Atomica program t b
    else Atomica program t a := by
  have others : ∀ d, d ≠ c → decidido (program.op d) (t.pc d) (t.request d) =
      decidido (program.op d) (s.pc d) (s.request d) := fun _ => decidido_other executed rfl
  have progress := atomica.inv.progress c
  cases step_effect executed with
  | complete pending answered =>
      rw [pending] at progress
      cases uses : (program.op c).usesConexao with
      | false =>
          have same : conectadoAfter (program.op c) res s.conectado = s.conectado := by
            cases op : program.op c with
            | conectar | desconectar =>
                rw [op] at uses
                cases uses
            | subscribe | unsubscribe => cases res <;> rfl
          rw [if_neg (by simp)]
          refine atomica.silent executed same ?_
          intro d
          by_cases own : d = c
          · subst d
            rw [decidido_of_not_usesConexao uses, decidido_of_not_usesConexao uses]
          · exact others d own
      | true =>
          rw [if_pos rfl]
          have waits : ∀ value, s.pc c ≠ .unlockConexao value ∧ s.pc c ≠ .returned value := by
            intro value
            constructor <;> intro pc <;> rw [pc] at progress <;>
              simp [PahoClient.progress] at progress
          have result := decidido_of_open uses (fun value => (waits value).1) fun value =>
            (waits value).2
          apply atomica.visible executed uses (conectadoAfter_eq uses res s.conectado) _ _ others
          · rw [pending]
            exact result .pending
          · simp only [State.setRequest, Function.update_self]
            exact result (.ready res)

/-- The client refines the atomic connection. -/
theorem conexao_simulates (program : Program) :
    Simulates (step program) (conexaoAtomica program) (efeitoAtomico program)
      (Atomica program) where
  silent := by
    intro s t a label atomica executed hidden
    cases label with
    | start c =>
        refine atomica.silent executed ?_ ?_
        · cases step_effect executed
          rfl
        · intro d
          by_cases own : d = c
          · subst d
            have progress := atomica.inv.progress c
            cases step_effect executed with
            | start idle =>
                rw [idle] at progress
                have unissued : s.request c = .unissued := progress
                simp only [State.setPc, Function.update_self, idle, unissued]
                have entered : ∀ res, entry (program.op c) ≠ .unlockConexao res ∧
                    entry (program.op c) ≠ .returned res := by
                  intro res
                  cases program.op c <;> simp [entry]
                rw [decidido_of_unissued (fun res => (entered res).1) fun res => (entered res).2,
                  decidido_of_unissued (by simp) (by simp)]
          · exact decidido_other executed rfl own
    | call c ret => exact atomica.call_silent executed hidden
    | wake c =>
        cases step_effect executed
        exact atomica.silent executed rfl fun _ => rfl
    | complete c res =>
        have done := atomica.complete executed
        simp only [efeitoAtomico] at hidden
        split at hidden
        · cases hidden
        · rename_i uses
          rwa [if_neg uses] at done
    | deliver c =>
        refine atomica.silent executed ?_ ?_
        · cases step_effect executed
          rfl
        · intro d
          cases step_effect executed with
          | deliver ready =>
              refine decidido_of_completion rfl ?_
              by_cases own : d = c
              · subst d
                simp [State.setRequest, ready, Request.completion]
              · simp [State.setRequest, own]
    | handler c =>
        obtain ⟨res, pc, running, next, samePc⟩ := request_of_handler executed
        refine atomica.silent executed ?_ ?_
        · cases step_effect executed with
          | handler _ effect => exact effect.conectado
        · intro d
          by_cases own : d = c
          · subst d
            refine decidido_of_completion samePc ?_
            rw [next, running]
            cases pc <;> rfl
          · exact decidido_other executed rfl own
    | arrive m =>
        cases step_effect executed
        exact atomica.silent executed rfl fun _ => rfl
    | message m ret =>
        have frame := mensagemRecebida_frame
          (show Connect.mensagemRecebida (program.chave m) m ret s = some t from executed)
        refine atomica.silent executed frame.conectado ?_
        intro d
        rw [frame.pc, frame.request]
    | network conectado => cases hidden
  visible := by
    intro s t a label visto atomica executed view
    cases label with
    | call c ret => exact atomica.call_visible executed view
    | complete c res =>
        have done := atomica.complete executed
        simp only [efeitoAtomico] at view
        split at view
        · rename_i uses
          cases view
          rwa [if_pos uses] at done
        · cases view
    | network conectado =>
        cases view
        refine ⟨_, rfl, ?_⟩
        cases step_effect executed
        exact ⟨atomica.inv.step executed, rfl, atomica.resultado⟩
    | start | wake | deliver | handler | arrive | message => cases view

/-- A call takes effect while it is in progress. -/
theorem inProgress_of_efeito (inv : Inv program s)
    (executed : PahoClient.step program s label = some t) {res : Bool}
    (view : efeitoAtomico program s label = some (.chamada c res)) :
    (s.pc c).inProgress = true := by
  cases label with
  | call d ret =>
      simp only [efeitoAtomico, efeitoDaChamada] at view
      cases op : program.op d <;> cases pc : s.pc d <;> simp [op, pc] at view <;>
        obtain ⟨_, rfl, _⟩ := view <;> rw [pc] <;> rfl
  | complete d completion =>
      have progress := inv.progress d
      cases step_effect executed with
      | complete pending answered =>
          simp only [efeitoAtomico] at view
          split at view
          · cases view
            rw [pending] at progress
            cases pc : s.pc c with
            | idle | returned =>
                rw [pc] at progress
                simp [PahoClient.progress] at progress
            | _ => rfl
          · cases view
  | start | wake | deliver | handler | arrive | message | network => cases view

end Steps

theorem atomica_initial (program : Program) (callbackMap : CallbackMap) (conectado : Bool) :
    Atomica program (initial callbackMap conectado) ⟨conectado, fun _ => none⟩ where
  inv := inv_initial program callbackMap conectado
  conectado := rfl
  resultado _ := (decidido_of_unissued (by simp [initial]) (by simp [initial])).symm

/-- However the threads interleave, their connect and disconnect calls give the
results that an atomic connection gives to one call after the other, and each
call takes its turn while it is in progress. -/
theorem connection_linearises (program : Program) (callbackMap : CallbackMap) (conectado : Bool)
    {history : List (Event State Label)} {s : State}
    (run : Run (step program) (initial callbackMap conectado) history s) :
    ∃ efeitos atomica,
      Run (conexaoAtomica program) ⟨conectado, fun _ => none⟩ efeitos atomica ∧
      efeitos.map Event.label = seenOf (efeitoAtomico program) history ∧
      atomica.conectado = s.conectado ∧
      (∀ c res, (program.op c).usesConexao = true → s.pc c = .returned res →
        atomica.resultado c = some res) ∧
      ∀ event ∈ history, ∀ c res,
        efeitoAtomico program event.source event.label = some (.chamada c res) →
          (event.source.pc c).inProgress = true := by
  obtain ⟨efeitos, atomica, atomicRun, related, seen⟩ := (conexao_simulates program).run run
    (atomica_initial program callbackMap conectado)
  refine ⟨efeitos, atomica, atomicRun, seen, related.conectado, ?_, ?_⟩
  · intro c res uses returned
    rw [related.resultado c, returned]
    simp [decidido, uses]
  · intro event member c res view
    obtain ⟨later, earlier, rfl⟩ := List.append_of_mem member
    obtain ⟨before, executed, _⟩ := run.split
    exact inProgress_of_efeito (Inv.of_run before) executed view

/-- A connect and a disconnect call at once. -/
def programaDeSessao : Program where
  op c := if c = 0 then .conectar else .desconectar
  topico _ := []

/-- The command of a call succeeds and the call returns. -/
def concluida (c : CallId) : List Label :=
  .complete c (.onSuccess ⟨0, [], 0⟩) :: .deliver c ::
    (List.replicate 6 (Label.handler c) ++ List.replicate 4 (Label.call c 0))

/-- The second call starts when the first is connecting and disconnects when it
has the connection for itself. -/
def conexaoEDesconexao : List Label :=
  [Label.start 0, .call 0 0, .call 0 0, .call 0 0, .start 1, .call 0 0] ++ concluida 0 ++
    [Label.call 1 0, .call 1 0, .call 1 0] ++ concluida 1

theorem connection_linearises_both :
    ∃ history s, Run (step programaDeSessao) (initial (fun _ => none) false) history s ∧
      s.pc 0 = .returned true ∧ s.pc 1 = .returned true ∧
      ∃ efeitos atomica,
        Run (conexaoAtomica programaDeSessao) ⟨false, fun _ => none⟩ efeitos atomica ∧
        efeitos.map Event.label = seenOf (efeitoAtomico programaDeSessao) history ∧
        atomica.conectado = false ∧ atomica.resultado 0 = some true ∧
        atomica.resultado 1 = some true := by
  obtain ⟨s, run, view⟩ := exists_run_of_execute (step programaDeSessao)
    (initial (fun _ => none) false) conexaoEDesconexao
    (fun s => (s.pc 0, s.pc 1, s.conectado)) (.returned true, .returned true, false) (by decide)
  simp only [Prod.mk.injEq] at view
  obtain ⟨efeitos, atomica, atomicRun, seen, conectado, resultado, _⟩ :=
    connection_linearises _ _ _ run
  exact ⟨_, s, run, view.1, view.2.1, efeitos, atomica, atomicRun, seen,
    conectado.trans view.2.2, resultado 0 true rfl view.1, resultado 1 true rfl view.2.1⟩

end PahoClient
