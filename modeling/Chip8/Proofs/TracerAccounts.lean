import Chip8.Controller
import Chip8.Proofs.StepOutcome

/-!
What a tracer keeps account of. It sees every word just before the word is carried out, and so it
cannot tell whether that ends in a fault. Its table counts the words outside the instruction
table; the log has a warning for the first of each, if the threshold lets warnings through, and at
the lowest threshold an entry for every word.
-/

namespace Chip8

theorem Word.raw_inj {a b : Word} : a.raw = b.raw ↔ a = b := by
  cases a
  cases b
  simp

/-- One use of the executor: a word given to it, or the next word of a machine. -/
inductive Call where
  | execute (m : Machine) (w : Word) (strict : Bool)
  | step (m : Machine) (strict : Bool)

structure Execution where
  machine : Machine
  word : Word

/-- What a tracer sees of a call; nothing when there is no word to fetch. -/
def Call.execution? : Call → Option Execution
  | .execute m w _ => some ⟨m, w⟩
  | .step m _ =>
    match m.fetch with
    | .ok (next, w) => some ⟨next, w⟩
    | .error _ => none

/-- The diagnostics after a call, however the call ends. -/
def Diagnostics.noting (d : Diagnostics) : Call → Diagnostics
  | .execute m w _ => d.observe m w
  | .step m _ => d.observeStep m

def Diagnostics.notingAll (d : Diagnostics) (calls : List Call) : Diagnostics :=
  calls.foldl noting d

def Call.traced : Call → Traced Machine
  | .execute m w strict => m.executeTraced w strict
  | .step m strict => m.stepTraced strict >>= fun r => pure r.1

def Call.outcome : Call → Except Fault Machine
  | .execute m w strict => m.execute w strict
  | .step m strict => (m.step strict).map Prod.fst

/-- What a call reports is `noting`, and what comes of it is what comes of it without a tracer. -/
theorem Call.traced_under (call : Call) (d : Diagnostics) :
    call.traced.under d = (call.outcome, d.noting call) := by
  cases call with
  | execute m w strict => exact m.executeTraced_under w strict d
  | step m strict => rw [traced, Traced.under_map, Machine.stepTraced_under, outcome,
      Diagnostics.noting]

/-- The calls of a list are made in turn, whatever comes of each. -/
theorem Diagnostics.notingAll_eq_foldl_traced (d : Diagnostics) (calls : List Call) :
    d.notingAll calls = calls.foldl (fun d call => (call.traced.under d).2) d := by
  simp only [Call.traced_under]
  rfl

/-- The calls of so many steps in a row, up to the first that faults. -/
def Machine.calls (m : Machine) (strict : Bool) : Nat → List Call
  | 0 => []
  | k + 1 =>
    .step m strict :: match m.step strict with
      | .ok (next, _) => next.calls strict k
      | .error _ => []

theorem Controller.diagnostics_steps (c : Controller) (k : Nat) :
    (c.steps k).1.diagnostics =
      c.diagnostics.notingAll (c.machine.calls c.settings.strict k) := by
  induction k generalizing c with
  | zero => rfl
  | succ k ih =>
    have seen := c.machine.stepTraced_under c.settings.strict c.diagnostics
    rw [steps, step, seen, Machine.calls]
    cases c.machine.step c.settings.strict with
    | ok r => exact ih _
    | error fault => rfl

namespace Execution

/-- A word outside the table that no earlier execution met. -/
def IsNews (e : Execution) (earlier : List Execution) : Prop :=
  e.word.supported = false ∧ ∀ f ∈ earlier, f.word ≠ e.word

instance (e : Execution) (earlier : List Execution) : Decidable (e.IsNews earlier) :=
  inferInstanceAs (Decidable (_ ∧ _))

/-- The first executions of the words outside the table, when others come before. -/
def news (earlier : List Execution) : List Execution → List Execution
  | [] => []
  | e :: rest =>
    if e.IsNews earlier then e :: news (earlier ++ [e]) rest else news (earlier ++ [e]) rest

end Execution

inductive Remark where
  | warning (e : Execution)
  | entry (e : Execution)

namespace Remark

def line (name : String) : Remark → String
  | warning e => "[ WARNING][" ++ name ++ "] " ++ Tracer.warning e.machine e.word
  | entry e => "[   DEBUG][" ++ name ++ "] " ++ Tracer.entry e.machine e.word

/-- What is remarked on an execution when others came before: a warning about news, then an
entry. -/
def on (threshold : Level) (earlier : List Execution) (e : Execution) : List Remark :=
  (if Level.warning.passes threshold = true ∧ e.IsNews earlier then [warning e] else []) ++
    if threshold = .debug then [entry e] else []

def all (threshold : Level) (earlier : List Execution) : List Execution → List Remark
  | [] => []
  | e :: rest => on threshold earlier e ++ all threshold (earlier ++ [e]) rest

theorem all_concat (threshold : Level) (earlier es : List Execution) (e : Execution) :
    all threshold earlier (es ++ [e]) =
      all threshold earlier es ++ on threshold (earlier ++ es) e := by
  induction es generalizing earlier with
  | nil => simp [all]
  | cons f rest ih =>
    rw [List.cons_append, all, all, ih, List.append_assoc, List.append_assoc]
    rfl

end Remark

namespace Execution

variable {earlier es : List Execution} {e : Execution} {w : Word}

theorem news_concat (earlier es : List Execution) (e : Execution) :
    news earlier (es ++ [e]) =
      news earlier es ++ if e.IsNews (earlier ++ es) then [e] else [] := by
  induction es generalizing earlier with
  | nil =>
    rw [List.append_nil]
    rfl
  | cons f rest ih =>
    have order : earlier ++ f :: rest = earlier ++ [f] ++ rest := by simp
    rw [List.cons_append, news, news, ih, order]
    split <;> rfl

theorem mem_words_news :
    w ∈ (news earlier es).map word ↔
      w.supported = false ∧ (∃ e ∈ es, e.word = w) ∧ ∀ f ∈ earlier, f.word ≠ w := by
  induction es generalizing earlier with
  | nil => simp [news]
  | cons e rest ih =>
    by_cases same : e.word = w
    · subst same
      by_cases fresh : e.IsNews earlier
      · rw [news, if_pos fresh]
        simpa [fresh.1] using fresh.2
      · rw [news, if_neg fresh, ih]
        constructor
        · rintro ⟨-, -, new⟩
          exact absurd rfl (new e (by simp))
        · rintro ⟨unknown, -, new⟩
          exact absurd ⟨unknown, new⟩ fresh
    · have tail : w ∈ (news earlier (e :: rest)).map word ↔
          w ∈ (news (earlier ++ [e]) rest).map word := by
        rw [news]
        split <;> simp [Ne.symm same]
      rw [tail, ih]
      simp [same, or_imp, forall_and]

end Execution

namespace Console

def append (console : Console) (new : List String) : Console :=
  { console with lines := console.lines ++ new.toArray }

@[simp] theorem append_nil (console : Console) : console.append [] = console := by
  simp [append]

@[simp] theorem name_append (console : Console) (new : List String) :
    (console.append new).name = console.name := rfl

@[simp] theorem threshold_append (console : Console) (new : List String) :
    (console.append new).threshold = console.threshold := rfl

@[simp] theorem append_append (console : Console) (first second : List String) :
    (console.append first).append second = console.append (first ++ second) := by
  simp [append, Array.append_assoc]

/-- A console that shows neither colours nor times. -/
structure Bare (console : Console) : Prop where
  uncolored : console.colored = false
  untimed : console.timestamps = false

variable {console : Console}

theorem Bare.append (bare : console.Bare) (new : List String) : (console.append new).Bare :=
  ⟨bare.uncolored, bare.untimed⟩

/-- No time is shown and no reading of the clock used up. -/
theorem Bare.log_eq (bare : console.Bare) (level : Level) (message : String) :
    console.log level message =
      if level.passes console.threshold then console.append [console.format 0 level.name message]
      else console := by
  have named : Level.ofName level.name = level := by cases level <;> decide
  have timeless (elapsed : Float) :
      console.format elapsed level.name message = console.format 0 level.name message := by
    simp only [format, bare.untimed, Bool.false_eq_true, if_false]
  rw [log, logNamed, named, admits]
  split
  · simp only [Console.append, timeless, bare.untimed, Bool.false_eq_true, if_false,
      Array.push_eq_append]
  · rfl

def heading : Level → String
  | .debug => "[   DEBUG]["
  | .info => "[    INFO]["
  | .warning => "[ WARNING]["
  | .error => "[   ERROR]["
  | .critical => "[CRITICAL]["

theorem Bare.format_eq (bare : console.Bare) (level : Level) (message : String) :
    console.format 0 level.name message = heading level ++ console.name ++ "] " ++ message := by
  simp only [format, bare.uncolored, bare.untimed, Bool.false_eq_true, if_false,
    String.empty_append, String.append_left_inj]
  cases level <;> decide

theorem Bare.log_warning (bare : console.Bare) (e : Execution) :
    console.log .warning (Tracer.warning e.machine e.word) =
      if Level.warning.passes console.threshold then
        console.append [(Remark.warning e).line console.name]
      else console := by
  rw [bare.log_eq, bare.format_eq]
  rfl

theorem Bare.log_entry (bare : console.Bare) (e : Execution) :
    console.log .debug (Tracer.entry e.machine e.word) =
      if console.threshold = .debug then
        console.append [(Remark.entry e).line console.name]
      else console := by
  have passes : Level.debug.passes console.threshold = true ↔ console.threshold = .debug := by
    cases console.threshold <;> decide
  rw [bare.log_eq, bare.format_eq]
  simp only [passes]
  rfl

end Console

/-- The tally has the words of news in their order, and of each word outside the table how often it
was carried out. -/
structure Tally.Counts (tally : Tally) (es : List Execution) : Prop where
  words : tally.words = (Execution.news [] es).map (·.word.raw)
  count : ∀ w : Word, tally.count w.raw =
    if w.supported then 0 else es.countP fun e => decide (e.word = w)

namespace Tally.Counts

variable {tally : Tally} {es : List Execution} {e : Execution}

theorem isNews_iff (counts : tally.Counts es) (unknown : e.word.supported = false) :
    e.IsNews es ↔ tally.count e.word.raw = 0 := by
  rw [counts.count, unknown]
  simp [Execution.IsNews, unknown]

theorem mem_words_iff (counts : tally.Counts es) (unknown : e.word.supported = false) :
    e.word.raw ∈ tally.words ↔ ¬e.IsNews es := by
  have listed : e.word.raw ∈ tally.words ↔ e.word ∈ (Execution.news [] es).map (·.word) := by
    rw [counts.words]
    simp only [List.mem_map]
    constructor
    · rintro ⟨f, inside, same⟩
      exact ⟨f, inside, Word.raw_inj.mp same⟩
    · rintro ⟨f, inside, same⟩
      exact ⟨f, inside, congrArg Word.raw same⟩
  rw [listed]
  exact Execution.mem_words_news.trans (by simp [Execution.IsNews, unknown])

theorem empty : Tally.empty.Counts [] where
  words := rfl
  count w := by simp

theorem concat (counts : tally.Counts es) (e : Execution) :
    Counts (if e.word.supported then tally else tally.add e.word.raw) (es ++ [e]) where
  words := by
    rw [Execution.news_concat, List.nil_append, List.map_append, ← counts.words]
    cases unknown : e.word.supported with
    | true => simp [Execution.IsNews, unknown]
    | false =>
      have listed := counts.mem_words_iff unknown
      by_cases fresh : e.IsNews es
      · rw [if_pos fresh, if_neg (by decide), words_add, if_neg (by simpa [listed] using fresh)]
        rfl
      · rw [if_neg fresh, if_neg (by decide), words_add, if_pos (listed.mpr fresh)]
        simp
  count w := by
    have before := counts.count w
    rw [List.countP_append, List.countP_singleton]
    cases unknown : e.word.supported with
    | true =>
      by_cases same : e.word = w
      · subst same
        simpa [unknown] using before
      · simpa [same] using before
    | false =>
      rw [if_neg (by decide), count_add, before]
      simp only [Word.raw_inj]
      by_cases same : e.word = w
      · subst same
        simp [unknown]
      · simp [same, Ne.symm same]

end Tally.Counts

theorem Tracer.observe_eq {console : Console} {tally : Tally} {es : List Execution}
    (bare : console.Bare) (counts : tally.Counts es) (e : Execution) :
    observe tally console e.machine e.word =
      (if e.word.supported then tally else tally.add e.word.raw,
        console.append ((Remark.on console.threshold es e).map (Remark.line console.name))) := by
  rw [observe, Remark.on]
  cases unknown : e.word.supported with
  | true =>
    have old : ¬e.IsNews es := by simp [Execution.IsNews, unknown]
    simp only [if_true, bare.log_entry, old, and_false, if_false, List.nil_append]
    split <;> simp
  | false =>
    have warned : (if tally.count e.word.raw = 0 then
          console.log .warning (warning e.machine e.word) else console) =
        console.append ((if Level.warning.passes console.threshold = true ∧ e.IsNews es then
          [Remark.warning e] else []).map (Remark.line console.name)) := by
      rw [bare.log_warning]
      by_cases fresh : e.IsNews es
      · simp only [(counts.isNews_iff unknown).mp fresh, if_true, fresh, and_true]
        split <;> simp
      · simp only [mt (counts.isNews_iff unknown).mpr fresh, if_false, fresh, and_false,
          List.map_nil, Console.append_nil]
    simp only [Bool.false_eq_true, if_false, warned, (bare.append _).log_entry, List.map_append]
    rw [← Console.append_append, Console.threshold_append, Console.name_append]
    split <;> simp

structure Diagnostics.Accounts (console : Console) (es : List Execution) (d : Diagnostics) :
    Prop where
  tally : ∃ tally, d.tally = some tally ∧ tally.Counts es
  console_eq : d.console =
    console.append ((Remark.all console.threshold [] es).map (Remark.line console.name))

namespace Diagnostics.Accounts

variable {console : Console} {es : List Execution} {d : Diagnostics}

theorem observe (bare : console.Bare) (accounts : Accounts console es d) (e : Execution) :
    Accounts console (es ++ [e]) (d.observe e.machine e.word) := by
  obtain ⟨⟨tally, held, counts⟩, written⟩ := accounts
  have bare' : d.console.Bare := by
    rw [written]
    exact bare.append _
  have seen := Tracer.observe_eq bare' counts e
  rw [Diagnostics.observe, held]
  simp only [seen]
  refine ⟨⟨_, rfl, counts.concat e⟩, ?_⟩
  rw [written, Console.append_append, Remark.all_concat, List.map_append]
  rfl

theorem noting (bare : console.Bare) (accounts : Accounts console es d) (call : Call) :
    Accounts console (es ++ call.execution?.toList) (d.noting call) := by
  cases call with
  | execute m w strict => exact accounts.observe bare ⟨m, w⟩
  | step m strict =>
    rw [Diagnostics.noting, Call.execution?, observeStep]
    cases m.fetch with
    | ok fetched => exact accounts.observe bare ⟨fetched.1, fetched.2⟩
    | error fault => simpa using accounts

theorem notingAll (bare : console.Bare) (accounts : Accounts console es d) (calls : List Call) :
    Accounts console (es ++ calls.filterMap Call.execution?) (d.notingAll calls) := by
  induction calls generalizing es d with
  | nil =>
    rw [List.filterMap_nil, List.append_nil]
    exact accounts
  | cons call rest ih =>
    have next := ih (accounts.noting bare call)
    rw [List.append_assoc] at next
    cases seen : call.execution? with
    | none =>
      rw [List.filterMap_cons_none seen]
      rwa [seen] at next
    | some e =>
      rw [List.filterMap_cons_some seen]
      rwa [seen] at next

end Diagnostics.Accounts

end Chip8
