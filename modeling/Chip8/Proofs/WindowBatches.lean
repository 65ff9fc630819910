import Mathlib.Data.List.Induction
import Chip8.Window

/-!
Window events in batches. Two snapshots in a row come to one: the keys of the second, a pause when
exactly one of them pauses, the end when either asks for it. Polling a list of events in two parts
gives two snapshots that come to the one of the whole list, and the run state moves over both as it
does over that one. So neither the keys nor the pause nor the end depends on where the polls cut the
events.
-/

namespace Chip8

def Snapshot.followedBy (first second : Snapshot) : Snapshot :=
  ⟨second.keypad, first.pauseToggled ^^ second.pauseToggled, first.quit || second.quit⟩

theorem RunState.next_followedBy (current : RunState) (first second : Snapshot) :
    current.next (first.followedBy second) = (current.next first).next second := by
  obtain ⟨_, pause, quit⟩ := first
  obtain ⟨_, pause', quit'⟩ := second
  cases current <;> cases pause <;> cases quit <;> cases pause' <;> cases quit' <;> rfl

namespace Snapshot

def still (keypad : Keypad) : Snapshot := ⟨keypad, false, false⟩

theorem next_still (current : RunState) (keypad : Keypad) :
    current.next (still keypad) = current := by
  cases current <;> rfl

theorem followedBy_still (s : Snapshot) : s.followedBy (still s.keypad) = s := by
  simp [followedBy, still]

theorem still_followedBy (keypad : Keypad) (s : Snapshot) : (still keypad).followedBy s = s := by
  simp [followedBy, still]

theorem followedBy_assoc (s t u : Snapshot) :
    (s.followedBy t).followedBy u = s.followedBy (t.followedBy u) := by
  simp [followedBy, Bool.or_assoc]

def merged (s : Snapshot) (later : List Snapshot) : Snapshot := later.foldl followedBy s

variable (s : Snapshot) (later : List Snapshot)

theorem merged_cons (t : Snapshot) : s.merged (t :: later) = (s.followedBy t).merged later := rfl

theorem merged_keypad :
    (s.merged later).keypad = (later.getLast?.map Snapshot.keypad).getD s.keypad := by
  induction later generalizing s with
  | nil => rfl
  | cons t rest ih =>
    rw [merged_cons, ih, List.getLast?_cons]
    cases rest.getLast? <;> rfl

theorem merged_pauseToggled :
    (s.merged later).pauseToggled =
      later.foldl (fun odd t => odd ^^ t.pauseToggled) s.pauseToggled := by
  induction later generalizing s with
  | nil => rfl
  | cons t rest ih => exact ih (s.followedBy t)

theorem merged_quit : (s.merged later).quit = (s.quit || later.any Snapshot.quit) := by
  induction later generalizing s with
  | nil => simp [merged]
  | cons t rest ih =>
    rw [merged_cons, ih, List.any_cons, ← Bool.or_assoc]
    rfl

theorem next_merged (current : RunState) :
    current.next (s.merged later) = later.foldl RunState.next (current.next s) := by
  induction later generalizing s with
  | nil => rfl
  | cons t rest ih =>
    rw [merged_cons, ih, RunState.next_followedBy, List.foldl_cons]

end Snapshot

namespace WindowEvent

def key? : WindowEvent → Option String
  | keyDown key | keyUp key => some key
  | close => none

def quits (e : WindowEvent) : Bool := e = close || e = keyDown Window.quitKey

def last? (key : String) (events : List WindowEvent) : Option WindowEvent :=
  (events.filter (·.key? = some key)).getLast?

theorem last?_concat (key : String) (events : List WindowEvent) (e : WindowEvent) :
    last? key (events ++ [e]) = if e.key? = some key then some e else last? key events := by
  by_cases own : e.key? = some key <;> simp [last?, own]

end WindowEvent

namespace Window

open Snapshot (still)

/-- The snapshots of successive polls, one for each batch of events. The keys that one poll leaves
down are down at the start of the next. -/
def polls (keypad : Keypad) : List (List WindowEvent) → List Snapshot
  | [] => []
  | batch :: rest => poll keypad batch :: polls (poll keypad batch).keypad rest

theorem moved_followedBy (s t : Snapshot) (key : String) (down : Bool) :
    moved (s.followedBy t) key down = s.followedBy (moved t key down) := by
  cases place : keyOf? key <;> simp [moved, place, Snapshot.followedBy]

theorem apply_followedBy (s t : Snapshot) (e : WindowEvent) :
    apply (s.followedBy t) e = s.followedBy (apply t e) := by
  cases e with
  | close => simp [apply, Snapshot.followedBy]
  | keyDown key =>
    rw [apply_keyDown, apply_keyDown]
    split
    · simp [Snapshot.followedBy]
    split
    · simp [Snapshot.followedBy]
    · exact moved_followedBy s t key true
  | keyUp key =>
    rw [apply_keyUp, apply_keyUp]
    exact moved_followedBy s t key false

theorem foldl_apply_followedBy (s t : Snapshot) (events : List WindowEvent) :
    events.foldl apply (s.followedBy t) = s.followedBy (events.foldl apply t) := by
  induction events generalizing t with
  | nil => rfl
  | cons e rest ih => rw [List.foldl_cons, List.foldl_cons, apply_followedBy, ih]

theorem poll_append (keypad : Keypad) (first second : List WindowEvent) :
    poll keypad (first ++ second) =
      (poll keypad first).followedBy (poll (poll keypad first).keypad second) := by
  rw [poll, List.foldl_append, ← poll]
  calc second.foldl apply (poll keypad first)
      = second.foldl apply
          ((poll keypad first).followedBy (still (poll keypad first).keypad)) := by
        rw [Snapshot.followedBy_still]
    _ = (poll keypad first).followedBy (poll (poll keypad first).keypad second) :=
        foldl_apply_followedBy ..

theorem merged_polls (s : Snapshot) (batches : List (List WindowEvent)) :
    s.merged (polls s.keypad batches) = s.followedBy (poll s.keypad batches.flatten) := by
  induction batches generalizing s with
  | nil => exact (Snapshot.followedBy_still s).symm
  | cons batch rest ih =>
    have later := ih (s.followedBy (poll s.keypad batch))
    calc s.merged (polls s.keypad (batch :: rest))
        = (s.followedBy (poll s.keypad batch)).followedBy
            (poll (poll s.keypad batch).keypad rest.flatten) := later
      _ = s.followedBy (poll s.keypad (batch :: rest).flatten) := by
        rw [Snapshot.followedBy_assoc, ← poll_append, List.flatten_cons]

theorem still_merged_polls (keypad : Keypad) (batches : List (List WindowEvent)) :
    (still keypad).merged (polls keypad batches) = poll keypad batches.flatten :=
  (merged_polls (still keypad) batches).trans (Snapshot.still_followedBy keypad _)

section Layout

theorem control_keys_notMem_layout :
    ∀ place ∈ layout, place.1 ≠ quitKey ∧ place.1 ≠ pauseKey := by
  decide +kernel

theorem keyOf?_of_mem_layout : ∀ place ∈ layout, keyOf? place.1 = some place.2 := by
  decide +kernel

theorem layout_injective : ∀ a ∈ layout, ∀ b ∈ layout, a.2 = b.2 → a.1 = b.1 := by
  decide +kernel

theorem mem_layout_of_keyOf? {key : String} {k : Fin 16} (h : keyOf? key = some k) :
    (key, k) ∈ layout := by
  obtain ⟨before, later, split, -⟩ := List.lookup_eq_some_iff.mp h
  rw [split]
  exact List.mem_append_right _ List.mem_cons_self

theorem keyOf?_eq_some_iff {key : String} {k : Fin 16} (mapped : (key, k) ∈ layout)
    (pressed : String) : keyOf? pressed = some k ↔ pressed = key := by
  constructor
  · intro h
    exact layout_injective _ (mem_layout_of_keyOf? h) _ mapped rfl
  · rintro rfl
    exact keyOf?_of_mem_layout _ mapped

end Layout

section Poll

variable (s : Snapshot) (e : WindowEvent) (events : List WindowEvent)

theorem moved_keypad {key : String} {k : Fin 16} (mapped : (key, k) ∈ layout) (pressed : String)
    (down : Bool) :
    (moved s pressed down).keypad.get k = if pressed = key then down else s.keypad.get k := by
  have found := keyOf?_eq_some_iff mapped pressed
  rw [moved]
  cases place : keyOf? pressed with
  | none =>
    have other : ¬pressed = key := by simpa [place] using found
    rw [if_neg other]
    rfl
  | some j =>
    rw [place, Option.some.injEq] at found
    exact (get_set _ j k down).trans (if_congr found rfl rfl)

theorem apply_keypad {key : String} {k : Fin 16} (mapped : (key, k) ∈ layout) :
    (apply s e).keypad.get k =
      if e.key? = some key then decide (e = .keyDown key) else s.keypad.get k := by
  obtain ⟨notQuit, notPause⟩ := control_keys_notMem_layout _ mapped
  cases e with
  | close => rfl
  | keyDown pressed =>
    simp only [apply_keyDown, WindowEvent.key?, Option.some.injEq, WindowEvent.keyDown.injEq]
    split
    case isTrue quits => rw [if_neg (quits ▸ notQuit.symm)]
    split
    case isTrue pauses => rw [if_neg (pauses ▸ notPause.symm)]
    rw [moved_keypad s mapped]
    by_cases same : pressed = key <;> simp [same]
  | keyUp released =>
    simp only [apply_keyUp, WindowEvent.key?, Option.some.injEq, reduceCtorEq, decide_false]
    exact moved_keypad s mapped released false

theorem apply_pauseToggled :
    (apply s e).pauseToggled = (s.pauseToggled ^^ decide (e = .keyDown pauseKey)) := by
  cases e with
  | close => simp [apply]
  | keyDown pressed =>
    simp only [apply_keyDown, WindowEvent.keyDown.injEq]
    split
    case isTrue quits => simp [quits, quitKey, pauseKey]
    split
    case isTrue pauses => simp [pauses]
    case isFalse other => simp [other]
  | keyUp released => simp [apply_keyUp]

theorem apply_quit : (apply s e).quit = (s.quit || e.quits) := by
  cases e with
  | close => simp [apply, WindowEvent.quits]
  | keyDown pressed =>
    simp only [apply_keyDown, WindowEvent.quits, WindowEvent.keyDown.injEq]
    split
    case isTrue quits => simp [quits]
    case isFalse stays =>
      rw [decide_eq_false stays]
      split <;> simp
  | keyUp released => simp [apply_keyUp, WindowEvent.quits]

theorem foldl_apply_keypad {key : String} {k : Fin 16} (mapped : (key, k) ∈ layout) :
    (events.foldl apply s).keypad.get k = true ↔
      WindowEvent.last? key events = some (.keyDown key) ∨
        WindowEvent.last? key events = none ∧ s.keypad.get k = true := by
  induction events using List.reverseRecOn with
  | nil => simp [WindowEvent.last?]
  | append_singleton earlier e ih =>
    rw [List.foldl_append, List.foldl_cons, List.foldl_nil, apply_keypad _ _ mapped,
      WindowEvent.last?_concat]
    by_cases own : e.key? = some key
    · simp [own]
    · simpa [own] using ih

theorem foldl_apply_pauseToggled :
    (events.foldl apply s).pauseToggled =
      (s.pauseToggled ^^ decide (events.count (.keyDown pauseKey) % 2 = 1)) := by
  induction events generalizing s with
  | nil => simp
  | cons e rest ih =>
    rw [List.foldl_cons, ih, apply_pauseToggled, Bool.xor_assoc, List.count_cons]
    by_cases pauses : e = .keyDown pauseKey
    · have parity : ∀ n, (true ^^ decide (n % 2 = 1)) = decide ((n + 1) % 2 = 1) := by
        intro n
        rw [Bool.true_xor, ← decide_not, decide_eq_decide]
        omega
      simp [pauses, parity]
    · simp [pauses]

theorem foldl_apply_quit :
    (events.foldl apply s).quit = (s.quit || events.any WindowEvent.quits) := by
  induction events generalizing s with
  | nil => simp
  | cons e rest ih => rw [List.foldl_cons, ih, apply_quit, Bool.or_assoc, List.any_cons]

end Poll

/-- However the events are cut into batches, the polls leave the keys as one poll of all the events
does, pause as often as it does modulo two, ask for the end when it does, and move the run state as
it does. That one poll has a key down when the last event of the key put it down, or when there is
none and it was down. It pauses when the pause key went down an odd number of times, and it asks for
the end when an event does. -/
theorem polls_of_batches (keypad : Keypad) (batches : List (List WindowEvent)) :
    let events := batches.flatten
    let snapshots := polls keypad batches
    let single := poll keypad events
    (snapshots.getLast?.map Snapshot.keypad).getD keypad = single.keypad ∧
    (∀ key k, (key, k) ∈ layout → (single.keypad.get k = true ↔
      WindowEvent.last? key events = some (.keyDown key) ∨
        WindowEvent.last? key events = none ∧ keypad.get k = true)) ∧
    snapshots.foldl (fun odd s => odd ^^ s.pauseToggled) false = single.pauseToggled ∧
    single.pauseToggled = decide (events.count (.keyDown pauseKey) % 2 = 1) ∧
    snapshots.any Snapshot.quit = single.quit ∧
    single.quit = events.any WindowEvent.quits ∧
    ∀ current : RunState, snapshots.foldl RunState.next current = current.next single := by
  intro events snapshots single
  have merged : (still keypad).merged snapshots = single := still_merged_polls keypad batches
  refine ⟨?_, ?_, ?_, ?_, ?_, ?_, ?_⟩
  · rw [← merged, Snapshot.merged_keypad]
    rfl
  · intro key k mapped
    exact foldl_apply_keypad _ events mapped
  · rw [← merged, Snapshot.merged_pauseToggled]
    rfl
  · exact (foldl_apply_pauseToggled _ events).trans (Bool.false_xor _)
  · rw [← merged, Snapshot.merged_quit]
    rfl
  · exact (foldl_apply_quit _ events).trans (Bool.false_or _)
  · intro current
    rw [← merged, Snapshot.next_merged, Snapshot.next_still]

/-- Three polls, the second of which finds nothing. A key goes down in the first and up in the last,
another one is still down from before, and the pause that the first poll begins is ended by the
last. -/
theorem polls_of_batches_across_an_empty_poll :
    let held : Keypad := Keypad.idle.set 0xF true
    let batches : List (List WindowEvent) :=
      [[.keyDown "q", .keyDown "SPACE", .keyDown "1"], [], [.keyUp "q", .keyDown "SPACE"]]
    let single := poll held batches.flatten
    (("q", 0x4) ∈ layout ∧ ("1", 0x1) ∈ layout ∧ ("v", 0xF) ∈ layout) ∧
    (polls held batches).map Snapshot.pauseToggled = [true, false, true] ∧
    single.keypad.get 0x4 = false ∧ single.keypad.get 0x1 = true ∧ single.keypad.get 0xF = true ∧
    single.pauseToggled = false ∧ single.quit = false ∧
    (polls held batches).foldl RunState.next .running = .running := by
  intro held batches single
  have q : ("q", 0x4) ∈ layout := by decide +kernel
  have one : ("1", 0x1) ∈ layout := by decide +kernel
  have v : ("v", 0xF) ∈ layout := by decide +kernel
  obtain ⟨-, keys, -, pauses, -, quits, moves⟩ := polls_of_batches held batches
  have released : WindowEvent.last? "q" batches.flatten = some (.keyUp "q") := by decide +kernel
  have pressed : WindowEvent.last? "1" batches.flatten = some (.keyDown "1") := by decide +kernel
  have untouched : WindowEvent.last? "v" batches.flatten = none := by decide +kernel
  have twice : single.pauseToggled = false := pauses.trans (by decide +kernel)
  have goesOn : single.quit = false := quits.trans (by decide +kernel)
  refine ⟨⟨q, one, v⟩, by decide +kernel, ?_, ?_, ?_, twice, goesOn, ?_⟩
  · rw [Bool.eq_false_iff, ne_eq, keys "q" 0x4 q, released]
    simp
  · exact (keys "1" 0x1 one).mpr (.inl pressed)
  · exact (keys "v" 0xF v).mpr (.inr ⟨untouched, by decide +kernel⟩)
  · rw [moves]
    change RunState.running.next single = .running
    simp [RunState.next, twice, goesOn]

end Window

end Chip8
