import PahoClient.Client.Messages

/-!
# When the storage of a message is released

The library attempts to deliver a message again when the last attempt returned
0, and considers it done on any other value.  `mensagemRecebida` releases the
message and its topic when the value is 1.  The two rules agree on the values
that a callback is allowed to return.
-/

namespace PahoClient

open PahoClient.Transition

/-- The event executes the statement at `pc` in an attempt to deliver the
message `k`. -/
def executes (mensagem : MsgId → Nat) (k : Nat) (pc : MessagePc) (event : Event State Label) :
    Bool :=
  match event.label with
  | .message m _ => mensagem m == k && (event.source.delivery m).pc == pc
  | _ => false

/-- How often a release function has been called for the message `k`.  A function
that the library does not export releases nothing. -/
def libertacoes (resolvida : Bool) (mensagem : MsgId → Nat) (k : Nat) (pc : MessagePc)
    (history : List (Event State Label)) : Nat :=
  if resolvida then history.countP (executes mensagem k pc) else 0

/-- The attempt has not begun, or it has returned 0. -/
def Settled (delivery : Delivery) : Prop :=
  delivery.pc = .idle ∨ delivery.pc = .finished ∧ delivery.ret = 0

/-- The library considers the message of this attempt done. -/
def Done (delivery : Delivery) : Prop :=
  delivery.pc = .finished ∧ delivery.ret ≠ 0

instance (delivery : Delivery) : Decidable (Settled delivery) :=
  inferInstanceAs (Decidable (_ ∨ _ ∧ _))

/-- The rule of the library: an attempt begins only when every earlier attempt
for the same message has returned 0. -/
def RedeliversOnZero (mensagem : MsgId → Nat) (history : List (Event State Label)) : Prop :=
  ∀ event ∈ history, ∀ m, event.label = .arrive m → ∀ n, n ≠ m → mensagem n = mensagem m →
    Settled (event.source.delivery n)

/-- After a release no attempt for the message begins. -/
def NeverEarly (mensagem : MsgId → Nat) (history : List (Event State Label)) : Prop :=
  ∀ later event earlier, history = later ++ event :: earlier → ∀ k,
    (executes mensagem k .freeMessage event = true ∨ executes mensagem k .free event = true) →
      ∀ other ∈ later, ∀ n, mensagem n = k → other.label ≠ .arrive n

/-! ## One attempt -/

section Attempts

variable {program : Program} {s t start : State} {label : Label}
  {history : List (Event State Label)} {m n : MsgId}

/-- How far an attempt has got with its two releases. -/
structure Attempt (m : MsgId) (history : List (Event State Label)) (s : State) : Prop where
  releasing : (s.delivery m).pc = .freeMessage ∨ (s.delivery m).pc = .free →
    (s.delivery m).ret = 1
  message : history.countP (executes id m .freeMessage) =
    if (s.delivery m).pc = .free ∨ (s.delivery m).pc = .finished ∧ (s.delivery m).ret = 1
      then 1 else 0
  topico : history.countP (executes id m .free) =
    if (s.delivery m).pc = .finished ∧ (s.delivery m).ret = 1 then 1 else 0

theorem executes_of_not_message (pc : MessagePc) (notMessage : ∀ ret, label ≠ .message m ret) :
    executes id m pc ⟨s, label, t⟩ = false := by
  cases label with
  | message n ret =>
      have other : n ≠ m := by
        rintro rfl
        exact notMessage ret rfl
      simp [executes, other]
  | _ => rfl

theorem Attempt.step (attempt : Attempt m history s) (executed : step program s label = some t) :
    Attempt m (⟨s, label, t⟩ :: history) t := by
  rcases delivery_cases executed m with ⟨same, notMessage⟩ | ⟨rfl, idle, moved⟩ | ⟨ret, rfl, moved⟩
  · constructor
    · rw [same]
      exact attempt.releasing
    · rw [List.countP_cons, executes_of_not_message .freeMessage notMessage, same]
      exact attempt.message
    · rw [List.countP_cons, executes_of_not_message .free notMessage, same]
      exact attempt.topico
  · have message := attempt.message
    have topico := attempt.topico
    simp only [idle, reduceCtorEq, false_and, or_self, if_false] at message topico
    constructor <;> simp [moved, executes, message, topico]
  · have message := attempt.message
    have topico := attempt.topico
    have releasing := attempt.releasing
    cases pc : (s.delivery m).pc with
    | test =>
        simp only [pc, reduceCtorEq, false_and, or_self, if_false] at message topico
        simp only [messageNext, pc] at moved
        split at moved
        · rename_i one
          constructor <;> simp [moved, executes, pc, message, topico, one]
        · rename_i other
          constructor <;> simp [moved, executes, pc, message, topico, other]
    | call =>
        simp only [pc, reduceCtorEq, false_and, or_self, if_false] at message topico
        simp only [messageNext, pc] at moved
        split at moved <;>
          constructor <;> simp [moved, executes, pc, message, topico]
    | freeMessage =>
        have one := releasing (Or.inl pc)
        simp only [pc, reduceCtorEq, false_and, or_self, if_false] at message topico
        simp only [messageNext, pc] at moved
        constructor <;> simp [moved, executes, pc, message, topico, one]
    | free =>
        have one := releasing (Or.inr pc)
        simp only [pc, reduceCtorEq, false_and, or_false, if_true, if_false] at message topico
        simp only [messageNext, pc] at moved
        constructor <;> simp [moved, executes, pc, message, topico, one]
    | finished =>
        simp only [messageNext, pc] at moved
        constructor
        · simp [moved, pc]
        · rw [List.countP_cons, moved, message]
          simp [executes, pc]
        · rw [List.countP_cons, moved, topico]
          simp [executes, pc]
    | idle | acquire | lookup | release | inside =>
        simp only [pc, reduceCtorEq, false_and, or_self, if_false] at message topico
        simp only [messageNext, pc] at moved
        constructor <;> simp [moved, executes, pc, message, topico]

theorem attempt_of_run {callbackMap : CallbackMap} {conectado : Bool}
    (run : Run (step program) (initial callbackMap conectado) history s) (m : MsgId) :
    Attempt m history s := by
  induction run with
  | refl => constructor <;> simp [initial]
  | tail _ executed ih => exact ih.step executed

/-- Only a callback makes an attempt return another value than 1. -/
structure ReturnsOne (delivery : Delivery) : Prop where
  inside : delivery.pc = .inside → delivery.callback ≠ Callback.null
  other : delivery.ret ≠ 1 → delivery.callback ≠ Callback.null ∧ (delivery.pc = .test ∨
    delivery.pc = .freeMessage ∨ delivery.pc = .free ∨ delivery.pc = .finished)

theorem returnsOne_messageNext {chave : StdString} {map : CallbackMap} {ret : Int}
    {delivery : Delivery} (before : ReturnsOne delivery) :
    ReturnsOne (messageNext chave map ret delivery) := by
  obtain ⟨inside, other⟩ := before
  unfold messageNext
  cases pc : delivery.pc with
  | call | test =>
      dsimp only
      split <;> constructor <;> simp_all
  | _ => constructor <;> simp_all

theorem returnsOne_of_run {callbackMap : CallbackMap} {conectado : Bool}
    (run : Run (step program) (initial callbackMap conectado) history s) (m : MsgId) :
    ReturnsOne (s.delivery m) := by
  apply run.invariant (fun state => ReturnsOne (state.delivery m))
  · constructor <;> simp [initial]
  · intro source label target before executed
    rcases delivery_cases executed m with ⟨same, _⟩ | ⟨_, idle, moved⟩ | ⟨ret, _, moved⟩
    · rwa [same]
    · rw [moved]
      obtain ⟨_, other⟩ := before
      constructor <;> simp_all
    · rw [moved]
      exact returnsOne_messageNext before

theorem messageNext_of_settled {chave : StdString} {map : CallbackMap} {ret : Int}
    {delivery : Delivery} (settled : Settled delivery) :
    messageNext chave map ret delivery = delivery := by
  rcases settled with idle | ⟨finished, _⟩
  · simp only [messageNext, idle]
  · simp only [messageNext, finished]

theorem idle_of_arrive (executed : step program s (.arrive m) = some t) :
    (s.delivery m).pc = .idle := by
  cases step_effect executed with
  | arrive idle => exact idle

/-- A settled attempt stays as it is until it begins. -/
theorem settled_step (settled : Settled (s.delivery n))
    (executed : step program s label = some t) (notArrive : label ≠ .arrive n) :
    Settled (t.delivery n) := by
  rcases delivery_cases executed n with ⟨same, _⟩ | ⟨arrives, _⟩ | ⟨ret, _, moved⟩
  · rwa [same]
  · exact absurd arrives notArrive
  · rw [moved, messageNext_of_settled settled]
    exact settled

/-- The attempt releases its message or has done so. -/
def Releasing (delivery : Delivery) : Prop :=
  (delivery.pc = .freeMessage ∨ delivery.pc = .free ∨ delivery.pc = .finished) ∧ delivery.ret = 1

theorem Releasing.not_settled {delivery : Delivery} (releasing : Releasing delivery) :
    ¬ Settled delivery := by
  obtain ⟨position, one⟩ := releasing
  rintro (idle | ⟨_, zero⟩)
  · rw [idle] at position
    simp at position
  · rw [one] at zero
    cases zero

theorem releasing_step (releasing : Releasing (s.delivery m))
    (executed : step program s label = some t) : Releasing (t.delivery m) := by
  obtain ⟨position, one⟩ := releasing
  rcases delivery_cases executed m with ⟨same, _⟩ | ⟨_, idle, _⟩ | ⟨ret, _, moved⟩
  · rw [same]
    exact ⟨position, one⟩
  · rw [idle] at position
    simp at position
  · rw [moved]
    rcases position with pc | pc | pc
    · simp only [messageNext, pc]
      exact ⟨Or.inr (Or.inl rfl), one⟩
    · simp only [messageNext, pc]
      exact ⟨Or.inr (Or.inr rfl), one⟩
    · simp only [messageNext, pc]
      exact ⟨Or.inr (Or.inr pc), one⟩

end Attempts

/-! ## All attempts for a message -/

section Messages

variable {program : Program} {s t start : State} {label : Label} {callbackMap : CallbackMap}
  {conectado : Bool} {history : List (Event State Label)} {m n : MsgId} {mensagem : MsgId → Nat}

/-- Of two attempts for one message at most one is under way or has succeeded. -/
def OneAttempt (mensagem : MsgId → Nat) (s : State) : Prop :=
  ∀ m n, m ≠ n → mensagem m = mensagem n → Settled (s.delivery m) ∨ Settled (s.delivery n)

theorem oneAttempt_step (one : OneAttempt mensagem s) (executed : step program s label = some t)
    (redelivers : RedeliversOnZero mensagem [⟨s, label, t⟩]) : OneAttempt mensagem t := by
  intro m n different same
  have others : ∀ k, label = .arrive k → ∀ l, l ≠ k → mensagem l = mensagem k →
      Settled (t.delivery l) := by
    rintro k rfl l other alike
    have settled := redelivers _ List.mem_cons_self k rfl l other alike
    apply settled_step settled executed
    rintro ⟨⟩
    exact other rfl
  by_cases first : label = .arrive m
  · exact Or.inr (others m first n different.symm same.symm)
  by_cases second : label = .arrive n
  · exact Or.inl (others n second m different same)
  rcases one m n different same with settled | settled
  · exact Or.inl (settled_step settled executed first)
  · exact Or.inr (settled_step settled executed second)

theorem oneAttempt_of_run
    (run : Run (step program) (initial callbackMap conectado) history s)
    (redelivers : RedeliversOnZero mensagem history) : OneAttempt mensagem s := by
  induction run with
  | refl =>
      intro m n _ _
      exact Or.inl (Or.inl rfl)
  | tail _ executed ih =>
      obtain ⟨now, before⟩ := List.forall_mem_cons.mp redelivers
      apply oneAttempt_step (ih before) executed
      exact List.forall_mem_cons.mpr ⟨now, by simp⟩

/-- A settled attempt has released nothing. -/
theorem executes_of_settled (attempt : Attempt n history s) (settled : Settled (s.delivery n))
    {pc : MessagePc} (releases : pc = .freeMessage ∨ pc = .free) :
    ∀ event ∈ history, executes id n pc event = false := by
  have nothing : history.countP (executes id n pc) = 0 := by
    rcases releases with rfl | rfl
    · rw [attempt.message]
      rcases settled with idle | ⟨finished, zero⟩
      · simp [idle]
      · simp [finished, zero]
    · rw [attempt.topico]
      rcases settled with idle | ⟨finished, zero⟩
      · simp [idle]
      · simp [finished, zero]
  intro event member
  simpa using List.countP_eq_zero.mp nothing event member

/-- The releases of a message are those of its one attempt that is not
settled. -/
theorem countP_executes (run : Run (step program) (initial callbackMap conectado) history s)
    (redelivers : RedeliversOnZero mensagem history) (unsettled : ¬ Settled (s.delivery m))
    {pc : MessagePc} (releases : pc = .freeMessage ∨ pc = .free) :
    history.countP (executes mensagem (mensagem m) pc) = history.countP (executes id m pc) := by
  apply List.countP_congr
  intro event member
  have one := oneAttempt_of_run run redelivers
  cases labelEq : event.label with
  | message n ret =>
      by_cases own : n = m
      · subst n
        simp [executes, labelEq]
      · simp only [executes, labelEq, Bool.and_eq_true, beq_iff_eq, id_eq]
        constructor
        · rintro ⟨same, atPc⟩
          rcases one n m own same with settled | settled
          · have never := executes_of_settled (attempt_of_run run n) settled releases event member
            simp [executes, labelEq, atPc] at never
          · exact absurd settled unsettled
        · rintro ⟨same, _⟩
          exact absurd same own
  | _ => simp [executes, labelEq]

/-- The attempt that executes a release statement is releasing. -/
theorem releasing_of_executes (run : Run (step program) (initial callbackMap conectado) history s)
    {k : Nat} (released : executes mensagem k .freeMessage ⟨s, label, t⟩ = true ∨
      executes mensagem k .free ⟨s, label, t⟩ = true) :
    ∃ m, mensagem m = k ∧ Releasing (s.delivery m) := by
  cases label with
  | message m ret =>
      have position : mensagem m = k ∧
          ((s.delivery m).pc = .freeMessage ∨ (s.delivery m).pc = .free) := by
        simpa [executes, ← and_or_left] using released
      refine ⟨m, position.1, ?_, (attempt_of_run run m).releasing position.2⟩
      rcases position.2 with pc | pc
      · exact Or.inl pc
      · exact Or.inr (Or.inl pc)
  | _ => simp [executes] at released

theorem neverEarly_of_run (run : Run (step program) (initial callbackMap conectado) history s)
    (redelivers : RedeliversOnZero mensagem history) : NeverEarly mensagem history := by
  rintro later event earlier rfl k released other member n same arrives
  obtain ⟨before, executed, after⟩ := run.split
  obtain ⟨m, ofMessage, releasing⟩ := releasing_of_executes before released
  obtain ⟨still, stepped, _⟩ := after.invariant_of_mem (fun state => Releasing (state.delivery m))
    (releasing_step releasing executed) (fun _ _ _ holds step => releasing_step holds step) member
  have notSettled := still.not_settled
  by_cases own : m = n
  · subst n
    rw [arrives] at stepped
    exact notSettled (Or.inl (idle_of_arrive stepped))
  · exact notSettled (redelivers other (List.mem_append_left _ member) n arrives m own
      (ofMessage.trans same.symm))

end Messages

/-- No release comes before an attempt, and the result of the last attempt
decides whether there was one release or none. -/
structure ReleasedByResult (mensagem : MsgId → Nat) (freeMessage free : Bool)
    (history : List (Event State Label)) (s : State) : Prop where
  neverEarly : NeverEarly mensagem history
  message : ∀ m, Done (s.delivery m) →
    libertacoes freeMessage mensagem (mensagem m) .freeMessage history =
      if (s.delivery m).ret = 1 ∧ freeMessage = true then 1 else 0
  topico : ∀ m, Done (s.delivery m) →
    libertacoes free mensagem (mensagem m) .free history =
      if (s.delivery m).ret = 1 ∧ free = true then 1 else 0
  semCallback : ∀ m, (s.delivery m).callback = Callback.null → (s.delivery m).ret = 1

/-- When a message is done, it and its topic have been released once if the last
attempt returned 1, as it does without a callback, and not at all if a callback
returned another value. -/
theorem messages_released_by_result (program : Program) (mensagem : MsgId → Nat)
    (freeMessage free : Bool) (callbackMap : CallbackMap) (conectado : Bool)
    {history : List (Event State Label)} {s : State}
    (run : Run (step program) (initial callbackMap conectado) history s)
    (redelivers : RedeliversOnZero mensagem history) :
    ReleasedByResult mensagem freeMessage free history s := by
  have unsettled : ∀ m, Done (s.delivery m) → ¬ Settled (s.delivery m) := by
    rintro m ⟨finished, nonzero⟩ (idle | ⟨_, zero⟩)
    · rw [idle] at finished
      cases finished
    · exact nonzero zero
  constructor
  · exact neverEarly_of_run run redelivers
  · intro m done
    rw [libertacoes, countP_executes run redelivers (unsettled m done) (Or.inl rfl),
      (attempt_of_run run m).message]
    cases freeMessage <;> simp [done.1]
  · intro m done
    rw [libertacoes, countP_executes run redelivers (unsettled m done) (Or.inr rfl),
      (attempt_of_run run m).topico]
    cases free <;> simp [done.1]
  · intro m unregistered
    by_contra other
    exact ((returnsOne_of_run run m).other other).1 unregistered

/-- Messages with an empty topic. -/
def programaDeEntrega : Program where
  op _ := .conectar
  topico _ := [0]

/-- A table with a callback for the empty topic. -/
def tabelaVazia : CallbackMap :=
  fun key => if key = [] then some ⟨1⟩ else none

/-- An attempt in which the callback returns `ret`, up to the test of `ret`. -/
def tentativa (m : MsgId) (ret : Int) : List Label :=
  [.arrive m, .message m 0, .message m 0, .message m 0, .message m 0, .message m ret,
    .message m 0]

/-- Two attempts for one message. -/
def duasTentativas (m : MsgId) : Nat :=
  if m < 2 then 0 else m

theorem eq_of_duasTentativas {n : Nat} (zero : duasTentativas n = 0) : n = 0 ∨ n = 1 := by
  unfold duasTentativas at zero
  split at zero
  · rename_i small
    exact Nat.le_one_iff_eq_zero_or_eq_one.mp (Nat.le_of_lt_succ small)
  · exact Or.inl zero

theorem messages_released_by_result_redelivered :
    ∃ history s, Run (step programaDeEntrega) (initial tabelaVazia true) history s ∧
      Done (s.delivery 1) ∧ ReleasedByResult duasTentativas true true history s := by
  obtain ⟨s, run, view⟩ := exists_run_of_execute (step programaDeEntrega)
    (initial tabelaVazia true)
    (tentativa 0 0 ++ tentativa 1 1 ++ [.message 1 0, .message 1 0])
    (fun s => s.delivery 1) ⟨.finished, ⟨1⟩, 1⟩ (by decide)
  refine ⟨_, s, run, by rw [view]; exact ⟨rfl, by decide⟩,
    messages_released_by_result _ _ true true _ _ run ?_⟩
  intro event member m arrives n other same
  have settled := forall_mem_eventsOf (step programaDeEntrega) (initial tabelaVazia true)
    (tentativa 0 0 ++ tentativa 1 1 ++ [.message 1 0, .message 1 0])
    (fun event => (event.label != .arrive 0 || decide (Settled (event.source.delivery 1))) &&
      (event.label != .arrive 1 || decide (Settled (event.source.delivery 0)))) (by decide)
    event member
  have listed := label_mem_of_mem_eventsOf member
  rw [arrives] at settled listed
  simp [tentativa] at listed
  rcases listed with rfl | rfl
  · rcases eq_of_duasTentativas same with rfl | rfl
    · exact absurd rfl other
    · simpa using settled
  · rcases eq_of_duasTentativas same with rfl | rfl
    · simpa using settled
    · exact absurd rfl other

/-- A callback returns 2: the library is done with the message, and nothing has
been released. -/
theorem messages_not_always_released_once :
    ¬ ∀ (program : Program) (mensagem : MsgId → Nat) (callbackMap : CallbackMap)
      (conectado : Bool) (history : List (Event State Label)) (s : State),
      Run (step program) (initial callbackMap conectado) history s →
        RedeliversOnZero mensagem history →
          NeverEarly mensagem history ∧ ∀ m, Done (s.delivery m) →
            libertacoes true mensagem (mensagem m) .freeMessage history = 1 ∧
              libertacoes true mensagem (mensagem m) .free history = 1 := by
  intro released
  obtain ⟨s, run, view⟩ := exists_run_of_execute (step programaDeEntrega)
    (initial tabelaVazia true) (tentativa 0 2) (fun s => s.delivery 0) ⟨.finished, ⟨1⟩, 2⟩
    (by decide)
  have redelivers : RedeliversOnZero id (eventsOf (step programaDeEntrega)
      (initial tabelaVazia true) (tentativa 0 2)).reverse :=
    fun _ _ _ _ _ other same => absurd same other
  have done : Done (s.delivery 0) := by
    rw [view]
    exact ⟨rfl, by decide⟩
  have once := ((released _ id _ _ _ s run redelivers).2 0 done).1
  rw [libertacoes, if_pos rfl, id_eq, (attempt_of_run run 0).message, view] at once
  simp at once

end PahoClient
