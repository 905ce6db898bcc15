/-! Programs that ask questions of their surroundings. Running a sequence is running its parts one
after another (`run_bind`), and answering each question by a program of its own is running with
composed answers (`run_translate`). -/

namespace ReleaseTracker

/-- The questions a program may ask, and the answers each of them has. -/
structure Interface where
  Query : Type
  Answer : Query → Type

/-- A program over an interface: finished, stopped by a fault, or waiting for an answer. -/
inductive Program (I : Interface) (ε α : Type) where
  | done (value : α)
  | stop (fault : ε)
  | ask (query : I.Query) (next : I.Answer query → Program I ε α)

abbrev Handler (I : Interface) (ε σ : Type) :=
  (query : I.Query) → σ → Except ε (I.Answer query) × σ

namespace Program
variable {I J : Interface} {ε α β γ σ : Type}

def bind : Program I ε α → (α → Program I ε β) → Program I ε β
  | .done a, f => f a
  | .stop e, _ => .stop e
  | .ask q next, f => .ask q fun answer => (next answer).bind f

def query (q : I.Query) : Program I ε (I.Answer q) := .ask q .done

instance : Monad (Program I ε) where
  pure := .done
  bind := bind

def run (answer : Handler I ε σ) : Program I ε α → σ → Except ε α × σ
  | .done a, s => (.ok a, s)
  | .stop e, s => (.error e, s)
  | .ask q next, s =>
    match answer q s with
    | (.ok a, s') => (next a).run answer s'
    | (.error e, s') => (.error e, s')

def step (answer : Handler I ε σ) : Program I ε α → σ → Program I ε α × σ
  | .done a, s => (.done a, s)
  | .stop e, s => (.stop e, s)
  | .ask q next, s =>
    match answer q s with
    | (.ok a, s') => (next a, s')
    | (.error e, s') => (.stop e, s')

def result? : Program I ε α → Option (Except ε α)
  | .done a => some (.ok a)
  | .stop e => some (.error e)
  | .ask _ _ => none

def translate (answer : (q : I.Query) → Program J ε (I.Answer q)) :
    Program I ε α → Program J ε α
  | .done a => .done a
  | .stop e => .stop e
  | .ask q next => (answer q).bind fun a => (next a).translate answer

@[simp] theorem pure_eq (a : α) : (pure a : Program I ε α) = .done a := rfl

@[simp] theorem bind_eq (p : Program I ε α) (f : α → Program I ε β) : p >>= f = p.bind f := rfl

@[simp] theorem done_bind (a : α) (f : α → Program I ε β) : (done a).bind f = f a := rfl

@[simp] theorem stop_bind (e : ε) (f : α → Program I ε β) : (stop e).bind f = .stop e := rfl

@[simp] theorem ask_bind (q : I.Query) (next : I.Answer q → Program I ε α)
    (f : α → Program I ε β) : (ask q next).bind f = .ask q fun a => (next a).bind f := rfl

@[simp] theorem bind_done (p : Program I ε α) : p.bind .done = p := by
  induction p with
  | done a => rfl
  | stop e => rfl
  | ask q next ih => simp only [ask_bind, ih]

theorem bind_assoc (p : Program I ε α) (f : α → Program I ε β) (g : β → Program I ε γ) :
    (p.bind f).bind g = p.bind fun a => (f a).bind g := by
  induction p with
  | done a => rfl
  | stop e => rfl
  | ask q next ih => simp only [ask_bind, ih]

theorem run_bind (answer : Handler I ε σ) (p : Program I ε α) (f : α → Program I ε β) (s : σ) :
    (p.bind f).run answer s =
      match p.run answer s with
      | (.ok a, s') => (f a).run answer s'
      | (.error e, s') => (.error e, s') := by
  induction p generalizing s with
  | done a => rfl
  | stop e => rfl
  | ask q next ih =>
    simp only [ask_bind, run]
    rcases answer q s with ⟨_ | a, s'⟩
    · rfl
    · exact ih a s'

theorem run_step (answer : Handler I ε σ) (p : Program I ε α) (s : σ) :
    (p.step answer s).1.run answer (p.step answer s).2 = p.run answer s := by
  cases p with
  | done a => rfl
  | stop e => rfl
  | ask q next =>
    simp only [step, run]
    rcases answer q s with ⟨_ | a, s'⟩ <;> rfl

/-- Answers given by programs are answers computed by running those programs. -/
theorem run_translate (inner : (q : I.Query) → Program J ε (I.Answer q))
    (answer : Handler J ε σ) (p : Program I ε α) (s : σ) :
    (p.translate inner).run answer s = p.run (fun q s => (inner q).run answer s) s := by
  induction p generalizing s with
  | done a => rfl
  | stop e => rfl
  | ask q next ih =>
    simp only [translate, run, run_bind]
    rcases (inner q).run answer s with ⟨_ | a, s'⟩
    · rfl
    · exact ih a s'

end Program
end ReleaseTracker
