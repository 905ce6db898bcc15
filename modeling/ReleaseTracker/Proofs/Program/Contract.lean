import ReleaseTracker.Proofs.Program.Runs

/-! What a program may ask, given what it was answered before, and how it may end (`Ensures`). The
answers only have to be such as may come, so a contract holds of every run, and of what is left of a
program wherever it stands. A log by itself leads from state to state (`Trace`). -/

namespace ReleaseTracker.Program
variable {I : Interface} {ε α β σ : Type}

/-- After a log, each further question is one that may be asked by then, and so is the end, as long
as the answers are such as may come. -/
def Ensures (may : (query : I.Query) → I.Answer query → Prop)
    (asks : List (Answered I) → I.Query → Prop)
    (ends : List (Answered I) → Except ε α → Prop) : List (Answered I) → Program I ε α → Prop
  | log, .done a => ends log (.ok a)
  | log, .stop e => ends log (.error e)
  | log, .ask query next => asks log query ∧
      ∀ answer, may query answer → Ensures may asks ends (log ++ [⟨query, answer⟩]) (next answer)

variable {may may' : (query : I.Query) → I.Answer query → Prop}
  {asks asks' : List (Answered I) → I.Query → Prop}
  {ends ends' : List (Answered I) → Except ε α → Prop} {log : List (Answered I)}

@[simp] theorem ensures_done_iff {a : α} :
    (Program.done a : Program I ε α).Ensures may asks ends log ↔ ends log (.ok a) := Iff.rfl

@[simp] theorem ensures_stop_iff {e : ε} :
    (Program.stop e : Program I ε α).Ensures may asks ends log ↔ ends log (.error e) := Iff.rfl

theorem ensures_ask_iff {query : I.Query} {next : I.Answer query → Program I ε α} :
    (Program.ask query next).Ensures may asks ends log ↔ asks log query ∧
      ∀ answer, may query answer → (next answer).Ensures may asks ends (log ++ [⟨query, answer⟩]) :=
  Iff.rfl

theorem Ensures.mono {p : Program I ε α} (h : p.Ensures may asks ends log)
    (hmay : ∀ query answer, may' query answer → may query answer)
    (hasks : ∀ log query, asks log query → asks' log query)
    (hends : ∀ log result, ends log result → ends' log result) :
    p.Ensures may' asks' ends' log := by
  induction p generalizing log with
  | done a => exact hends log _ h
  | stop e => exact hends log _ h
  | ask query next ih =>
    obtain ⟨hquery, hnext⟩ := h
    exact ⟨hasks log query hquery, fun answer hanswer =>
      ih answer (hnext answer (hmay query answer hanswer))⟩

theorem Ensures.bind {p : Program I ε α} {f : α → Program I ε β}
    {last : List (Answered I) → Except ε β → Prop} (h : p.Ensures may asks ends log)
    (hnext : ∀ log a, ends log (.ok a) → (f a).Ensures may asks last log)
    (hfault : ∀ log e, ends log (.error e) → last log (.error e)) :
    (p.bind f).Ensures may asks last log := by
  induction p generalizing log with
  | done a => exact hnext log a h
  | stop e => exact hfault log e h
  | ask query next ih => exact ⟨h.1, fun answer hanswer => ih answer (h.2 answer hanswer)⟩

theorem Ensures.under {p : Program I ε α} {always : I.Query → Prop} {any : Except ε α → Prop}
    (h : p.Ensures may (fun _ => always) (fun _ => any) log)
    (hasks : ∀ more query, always query → asks (log ++ more) query)
    (hends : ∀ more result, any result → ends (log ++ more) result) :
    p.Ensures may asks ends log := by
  induction p generalizing log with
  | done a => simpa using hends [] _ h
  | stop e => simpa using hends [] _ h
  | ask query next ih =>
    obtain ⟨hquery, hnext⟩ := h
    refine ⟨by simpa using hasks [] query hquery, fun answer hanswer => ?_⟩
    refine ih answer (hnext answer hanswer) (fun more query hquery => ?_) fun more result hany => ?_
    · rw [List.append_assoc]
      exact hasks _ query hquery
    · rw [List.append_assoc]
      exact hends _ result hany

theorem Ensures.and {p : Program I ε α} (h : p.Ensures may asks ends log)
    (h' : p.Ensures may asks' ends' log) :
    p.Ensures may (fun log query => asks log query ∧ asks' log query)
      (fun log result => ends log result ∧ ends' log result) log := by
  induction p generalizing log with
  | done a => exact ⟨h, h'⟩
  | stop e => exact ⟨h, h'⟩
  | ask query next ih =>
    exact ⟨⟨h.1, h'.1⟩, fun answer hanswer => ih answer (h.2 answer hanswer) (h'.2 answer hanswer)⟩

theorem Ensures.of_result? {p : Program I ε α} {result : Except ε α}
    (h : p.Ensures may asks ends log) (hresult : p.result? = some result) : ends log result := by
  cases p with
  | done a =>
    obtain rfl := Option.some.inj hresult
    exact h
  | stop e =>
    obtain rfl := Option.some.inj hresult
    exact h
  | ask => cases hresult

/-- A run keeps to the contract, if what is answered while something holds may come, and it goes on
to hold. -/
theorem Ensures.runs_while {conduct : Conduct I σ} {p : Program I ε α} {s s' : σ}
    {more : List (Answered I)} {result : Except ε α} (h : p.Ensures may asks ends log)
    (holds : σ → Prop) (hrun : Runs conduct p s more result s') (hs : holds s)
    (hmay : ∀ log s query answer s', asks log query → holds s → conduct s query answer s' →
      may query answer ∧ holds s') :
    ends (log ++ more) result ∧
      ∀ before event after, more = before ++ event :: after → asks (log ++ before) event.query := by
  induction hrun generalizing log with
  | done a s => exact ⟨by simpa using h, by simp⟩
  | stop e s => exact ⟨by simpa using h, by simp⟩
  | @ask query _ answer _ _ _ _ _ answered _ ih =>
    obtain ⟨hquery, hnext⟩ := h
    obtain ⟨hanswer, hmid⟩ := hmay _ _ _ _ _ hquery hs answered
    obtain ⟨hends, hlater⟩ := ih (hnext answer hanswer) hmid
    refine ⟨by simpa using hends, fun before event after hlog => ?_⟩
    cases before with
    | nil =>
      obtain ⟨rfl, -⟩ := List.cons.inj hlog
      simpa using hquery
    | cons first before =>
      obtain ⟨rfl, hrest⟩ := List.cons.inj hlog
      simpa using hlater before event after hrest

theorem Ensures.runs {conduct : Conduct I σ} {p : Program I ε α} {s s' : σ}
    {more : List (Answered I)} {result : Except ε α} (h : p.Ensures may asks ends log)
    (hrun : Runs conduct p s more result s')
    (hmay : ∀ s query answer s', conduct s query answer s' → may query answer) :
    ends (log ++ more) result ∧
      ∀ before event after, more = before ++ event :: after → asks (log ++ before) event.query :=
  h.runs_while (fun _ => True) hrun trivial fun _ s query answer s' _ _ hconduct =>
    ⟨hmay s query answer s' hconduct, trivial⟩

theorem Ensures.asked {conduct : Conduct I σ} {p : Program I ε α} {s s' : σ}
    {more : List (Answered I)} {result : Except ε α} {always : I.Query → Prop}
    (h : p.Ensures may (fun _ => always) ends log) (hrun : Runs conduct p s more result s')
    (hmay : ∀ s query answer s', conduct s query answer s' → may query answer) :
    ∀ event ∈ more, always event.query := by
  intro event hevent
  obtain ⟨before, after, hmore⟩ := List.append_of_mem hevent
  exact (h.runs hrun hmay).2 before event after hmore

theorem Ensures.run {p : Program I ε α} {answer answer' : Handler I ε σ} {always : I.Query → Prop}
    {good : Except ε α → Prop} (h : p.Ensures may (fun _ => always) (fun _ => good) log)
    (hanswer : ∀ query s, always query →
      ∃ a s', may query a ∧ answer query s = (.ok a, s') ∧ answer' query s = (.ok a, s'))
    (s : σ) : p.run answer s = p.run answer' s ∧ good (p.run answer s).1 := by
  induction p generalizing log s with
  | done a => exact ⟨rfl, h⟩
  | stop e => exact ⟨rfl, h⟩
  | ask query next ih =>
    obtain ⟨hquery, hnext⟩ := h
    obtain ⟨a, s', hmay, ha, ha'⟩ := hanswer query s hquery
    simp only [Program.run, ha, ha']
    exact ih a (hnext a hmay) s'

/-! What is left -/

inductive Leaves : Program I ε α → List (Answered I) → Program I ε α → Prop
  | nothing (p : Program I ε α) : Leaves p [] p
  | ask {query : I.Query} {next : I.Answer query → Program I ε α} {answer : I.Answer query}
      {log : List (Answered I)} {rest : Program I ε α} (left : Leaves (next answer) log rest) :
      Leaves (.ask query next) (⟨query, answer⟩ :: log) rest

theorem leaves_ask_iff {query : I.Query} {next : I.Answer query → Program I ε α}
    {rest : Program I ε α} : Leaves (.ask query next) log rest ↔
      (log = [] ∧ rest = .ask query next) ∨
        ∃ answer later, log = ⟨query, answer⟩ :: later ∧ Leaves (next answer) later rest := by
  constructor
  · rintro (_ | hrest)
    · exact .inl ⟨rfl, rfl⟩
    · exact .inr ⟨_, _, rfl, hrest⟩
  · rintro (⟨rfl, rfl⟩ | ⟨answer, later, rfl, hrest⟩)
    · exact .nothing _
    · exact .ask hrest

theorem Leaves.snoc {p : Program I ε α} {query : I.Query} {next : I.Answer query → Program I ε α}
    (h : Leaves p log (.ask query next)) (answer : I.Answer query) :
    Leaves p (log ++ [⟨query, answer⟩]) (next answer) := by
  generalize hrest : Program.ask query next = rest at h
  induction h with
  | nothing p =>
    subst hrest
    exact .ask (.nothing _)
  | ask _ ih => exact .ask (ih hrest)

/-! Traces -/

inductive Trace (conduct : Conduct I σ) : σ → List (Answered I) → σ → Prop
  | nil (s : σ) : Trace conduct s [] s
  | cons {event : Answered I} {s mid s' : σ} {log : List (Answered I)}
      (answered : conduct s event.query event.answer mid) (rest : Trace conduct mid log s') :
      Trace conduct s (event :: log) s'

variable {conduct : Conduct I σ} {s s' : σ}

theorem Runs.trace {p : Program I ε α} {result : Except ε α}
    (hrun : Runs conduct p s log result s') : Trace conduct s log s' := by
  induction hrun with
  | done a s => exact .nil s
  | stop e s => exact .nil s
  | ask answered _ ih => exact .cons answered ih

theorem trace_append_iff {rest : List (Answered I)} : Trace conduct s (log ++ rest) s' ↔
    ∃ mid, Trace conduct s log mid ∧ Trace conduct mid rest s' := by
  induction log generalizing s with
  | nil =>
    constructor
    · exact fun h => ⟨s, .nil s, h⟩
    · rintro ⟨_, ⟨⟩, h⟩
      exact h
  | cons event log ih =>
    constructor
    · rintro ⟨⟩
      rename_i mid hfirst hrest
      obtain ⟨last, hlog, hlast⟩ := ih.mp hrest
      exact ⟨last, .cons hfirst hlog, hlast⟩
    · rintro ⟨last, ⟨⟩, hlast⟩
      rename_i mid hfirst hlog
      exact .cons hfirst (ih.mpr ⟨last, hlog, hlast⟩)

theorem Trace.relates {related : σ → σ → Prop} (h : Trace conduct s log s')
    (hrefl : ∀ s, related s s)
    (htrans : ∀ s mid s', related s mid → related mid s' → related s s')
    (hstep : ∀ event ∈ log, ∀ s s', conduct s event.query event.answer s' → related s s') :
    related s s' := by
  induction h with
  | nil s => exact hrefl s
  | cons answered _ ih =>
    obtain ⟨hfirst, hrest⟩ := List.forall_mem_cons.mp hstep
    exact htrans _ _ _ (hfirst _ _ answered) (ih hrest)

theorem Trace.snoc {event : Answered I} {mid : σ} (h : Trace conduct s log mid)
    (hanswered : conduct mid event.query event.answer s') :
    Trace conduct s (log ++ [event]) s' :=
  trace_append_iff.mpr ⟨mid, h, .cons hanswered (.nil s')⟩

theorem Leaves.runs {p rest : Program I ε α} {result : Except ε α} (h : Leaves p log rest)
    (hresult : rest.result? = some result) (htrace : Trace conduct s log s') :
    Runs conduct p s log result s' := by
  induction h generalizing s with
  | nothing p =>
    cases htrace
    cases p with
    | done a =>
      obtain rfl := Option.some.inj hresult
      exact .done a _
    | stop e =>
      obtain rfl := Option.some.inj hresult
      exact .stop e _
    | ask => cases hresult
  | ask _ ih =>
    cases htrace with
    | cons hanswered hrest => exact .ask hanswered (ih hresult hrest)

end ReleaseTracker.Program
