import Chip8.Config.Field
import Mathlib.Data.List.Basic

/-!
The fields of a draft and the references between them. A value fits its field, is of the wrong kind,
or is a whole number that no floating-point number is near; the last can only befall the cadence,
which alone is a floating-point number, be the number its own or one that it refers to.
-/

namespace Chip8

namespace Config

/-- A computation ends in a value with a property or in an error of a kind. -/
inductive Ends {ε α : Type} (post : α → Prop) (kind : ε → Prop) : Except ε α → Prop where
  | value {a : α} (holds : post a) : Ends post kind (.ok a)
  | error {e : ε} (known : kind e) : Ends post kind (.error e)

namespace Ends

variable {ε α β : Type} {post : α → Prop} {goal : β → Prop} {kind : ε → Prop} {x : Except ε α}

theorem imp {post' : α → Prop} {kind' : ε → Prop} (ends : Ends post kind x)
    (value : ∀ a, post a → post' a) (error : ∀ e, kind e → kind' e) : Ends post' kind' x := by
  cases ends with
  | value holds => exact .value (value _ holds)
  | error known => exact .error (error _ known)

theorem exact (ends : Ends post kind x) : Ends (fun a => x = .ok a ∧ post a) kind x := by
  cases ends with
  | value holds => exact .value ⟨rfl, holds⟩
  | error known => exact .error known

theorem bind {f : α → Except ε β} (ends : Ends post kind x)
    (next : ∀ a, post a → Ends goal kind (f a)) : Ends goal kind (x >>= f) := by
  cases ends with
  | value holds => exact next _ holds
  | error known => exact .error known

theorem map {f : α → β} (ends : Ends (fun a => goal (f a)) kind x) :
    Ends goal kind (x.map f) := by
  cases ends with
  | value holds => exact .value holds
  | error known => exact .error known

theorem mapError {ε' : Type} {kind' : ε' → Prop} {f : ε → ε'} (ends : Ends post kind x)
    (error : ∀ e, kind e → kind' (f e)) : Ends post kind' (x.mapError f) := by
  cases ends with
  | value holds => exact .value holds
  | error known => exact .error (error _ known)

theorem foldlM {f : β → α → Except ε β} {l : List α} {b : β}
    (step : ∀ b, ∀ a ∈ l, goal b → Ends goal kind (f b a)) (start : goal b) :
    Ends goal kind (l.foldlM f b) := by
  induction l generalizing b with
  | nil => exact .value start
  | cons a l ih =>
    rw [List.foldlM_cons]
    exact (step b a List.mem_cons_self start).bind fun b' kept =>
      ih (fun b a mem => step b a (List.mem_cons_of_mem _ mem)) kept

end Ends

theorem fit_eq_tooLarge {type : FieldType} {value : Datum}
    (failed : value.fit type = .error .tooLarge) :
    type = .float ∧ ∃ n, value = .int n ∧ Numeral.float? n = none := by
  unfold Datum.fit at failed
  split at failed
  case h_3 n =>
    split at failed
    · cases failed
    · exact ⟨rfl, n, rfl, by assumption⟩
  case h_2 s =>
    rw [Datum.wholeText] at failed
    split at failed <;> cases failed
  case h_5 s => split at failed <;> cases failed
  case h_8 s =>
    unfold Datum.truthText at failed
    split at failed
    · cases failed
    · dsimp only at failed
      split at failed
      · cases failed
      · split at failed <;> cases failed
  all_goals cases failed

theorem eq_cadence_of_type {field : Field} (float : field.type = .float) : field = .cadence := by
  cases field <;> first | rfl | cases float

theorem draft_assign_eq_tooLarge {draft : Draft} {field : Field} {v : Yaml.Value}
    (failed : draft.assign field v = .error .tooLarge) :
    field = .cadence ∧ ∃ n, v = .int n ∧ Numeral.float? n = none := by
  have fitted {d : Datum} {f : Datum → Draft}
      (misfit : (d.fit field.type).map f = .error .tooLarge) :
      d.fit field.type = .error .tooLarge := by
    cases fit : d.fit field.type with
    | error reason => rw [fit] at misfit; cases misfit; rfl
    | ok => rw [fit] at misfit; cases misfit
  unfold Draft.assign at failed
  dsimp only at failed
  split at failed
  case h_1 => cases failed
  case h_2 s _ =>
    split at failed
    · cases failed
    split at failed
    · split at failed <;> cases failed
    obtain ⟨-, n, text, -⟩ := fit_eq_tooLarge (fitted failed)
    cases text
  case h_3 d _ found =>
    obtain ⟨float, n, rfl, huge⟩ := fit_eq_tooLarge (fitted failed)
    refine ⟨eq_cadence_of_type float, n, ?_, huge⟩
    cases v <;> cases found
    rfl

def Overflows (draft : Draft) : Prop :=
  ∃ piece fuel n, draft .cadence = .template [piece] ∧
    draft.pieceValue fuel piece = .ok (.int n) ∧ Numeral.float? n = none

def Blames (draft : Draft) (e : Misfit) : Prop := e = .tooLarge → Overflows draft

theorem ends_wrongKind {α : Type} {post : α → Prop} (draft : Draft) :
    Ends post (Blames draft) (.error .wrongKind) := by
  refine .error fun same => ?_
  cases same

theorem ends_fit {type : FieldType} {value : Datum} {draft : Draft}
    (blame : type = .float → ∀ n, value = .int n → Numeral.float? n = none → Overflows draft) :
    Ends (fun _ => True) (Blames draft) (value.fit type) := by
  cases fit : value.fit type with
  | ok => exact .value trivial
  | error misfit =>
    refine .error ?_
    rintro rfl
    obtain ⟨float, n, whole, huge⟩ := fit_eq_tooLarge fit
    exact blame float n whole huge

theorem ends_references (draft : Draft) (fuel : Nat) :
    (∀ field, Ends (fun _ => True) (Blames draft) (draft.value fuel field)) ∧
    (∀ piece, Ends (fun _ => True) (Blames draft) (draft.pieceValue fuel piece)) ∧
    ∀ pieces, Ends (fun _ => True) (Blames draft) (draft.shown fuel pieces) := by
  induction fuel with
  | zero => exact ⟨fun _ => ends_wrongKind draft, fun _ => ends_wrongKind draft,
      fun _ => ends_wrongKind draft⟩
  | succ fuel ih =>
    obtain ⟨value, pieceValue, shown⟩ := ih
    refine ⟨?_, ?_, ?_⟩
    · intro field
      rw [Draft.value]
      split
      case h_1 => exact .value trivial
      case h_2 piece template =>
        refine (pieceValue piece).exact.bind fun d ⟨found, _⟩ => ends_fit ?_
        rintro float n rfl huge
        rw [eq_cadence_of_type float] at template
        exact ⟨piece, fuel, n, template, found, huge⟩
      case h_3 pieces _ _ =>
        refine (shown pieces).bind fun s _ => ends_fit ?_
        rintro - n ⟨⟩
    · intro piece
      cases piece with
      | text s => exact .value trivial
      | reference dots name =>
        rw [Draft.pieceValue]
        refine (shown name).bind fun s _ => ?_
        split
        · split
          · exact value _
          · exact ends_wrongKind draft
        · exact ends_wrongKind draft
    · intro pieces
      cases pieces with
      | nil => exact .value trivial
      | cons piece rest =>
        rw [Draft.shown]
        exact (pieceValue piece).bind fun d _ => (shown rest).bind fun s _ => .value trivial

theorem ends_resolve (draft : Draft) :
    Ends (fun _ => True) (Blames draft) draft.resolve := by
  have value (field : Field) := (ends_references draft Draft.longestChain).1 field
  have wrong {α : Type} : Ends (fun _ : α => True) (Blames draft) (.error .wrongKind) :=
    ends_wrongKind draft
  unfold Draft.resolve
  extract_lets get int bool text optionalText float
  have ints (field) : Ends (fun _ => True) (Blames draft) (int field) :=
    (value field).bind fun d _ => by cases d <;> first | exact .value trivial | exact wrong
  have bools (field) : Ends (fun _ => True) (Blames draft) (bool field) :=
    (value field).bind fun d _ => by cases d <;> first | exact .value trivial | exact wrong
  have texts (field) : Ends (fun _ => True) (Blames draft) (text field) :=
    (value field).bind fun d _ => by cases d <;> first | exact .value trivial | exact wrong
  have optionals (field) : Ends (fun _ => True) (Blames draft) (optionalText field) :=
    (value field).bind fun d _ => by cases d <;> exact .value trivial
  have floats (field) : Ends (fun _ => True) (Blames draft) (float field) :=
    (value field).bind fun d _ => by cases d <;> first | exact .value trivial | exact wrong
  refine (ints .width).bind fun _ _ => (ints .height).bind fun _ _ => ?_
  refine (ints .scale).bind fun _ _ => ?_
  refine (texts .fgColor).bind fun _ _ => (texts .bgColor).bind fun _ _ => ?_
  refine (optionals .colorScheme).bind fun _ _ => (bools .pixelOutlines).bind fun _ _ => ?_
  refine (floats .cadence).bind fun _ _ => (ints .instructionsPerFrame).bind fun _ _ => ?_
  refine (bools .modernMode).bind fun _ _ => (bools .strictOpcodes).bind fun _ _ => ?_
  refine (bools .trace).bind fun _ _ => (texts .logLevel).bind fun _ _ => ?_
  exact (ints .seed).bind fun _ _ => .value trivial

end Config

end Chip8
