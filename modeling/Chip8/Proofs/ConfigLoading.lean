import Chip8.Config.Load
import Chip8.Proofs.DraftResolution
import Chip8.Proofs.UsableConfig

/-!
What loading a configuration can come to. A configuration that is returned has passed every check,
so that colours, pacing and frame settings can be had from it; of the machine only the seed can
still stand in the way. An error is nearly always told as an invalid configuration. `Escapes` lists
the others with what brings each of them about.
-/

namespace Chip8

namespace Config

deriving instance DecidableEq for Except

variable {config : Config}

/-- An error that is told as an invalid configuration, or one of a kind. -/
inductive LoadError.Told (kind : LoadError → Prop) : LoadError → Prop where
  | invalid (reason : ConfigError) : Told kind (.invalid reason)
  | special {e : LoadError} (known : kind e) : Told kind e

open LoadError (Told)

theorem LoadError.Told.imp {kind kind' : LoadError → Prop} {e : LoadError} (told : Told kind e)
    (sub : ∀ e, kind e → kind' e) : Told kind' e := by
  cases told with
  | invalid reason => exact .invalid reason
  | special known => exact .special (sub e known)

theorem Ends.told {α : Type} {post : α → Prop} {kind kind' : LoadError → Prop}
    {x : Except LoadError α} (ends : Ends post (Told kind) x) (sub : ∀ e, kind e → kind' e) :
    Ends post (Told kind') x :=
  ends.imp (fun _ holds => holds) fun _ told => told.imp sub

theorem ends_unreadable {α : Type} {post : α → Prop} {kind : LoadError → Prop} :
    Ends post (Told kind) (.error .unreadable) := .error (.invalid _)

variable {file : Option (List UInt8)} {overrides : List String}

def Reads (file : Option (List UInt8)) (v : Yaml.Value) : Prop :=
  ∃ content text, file = some content ∧ decode content = .ok text ∧ Yaml.Value.ofText text = .ok v

/-- What the file holds: its value, or the value of the text that is all of it. -/
inductive Holds (file : Option (List UInt8)) (v : Yaml.Value) : Prop where
  | whole (read : Reads file v)
  | inner {text : String} (read : Reads file (.text text)) (again : Yaml.Value.ofText text = .ok v)

def overrideValue (o : String) : Except LoadError Yaml.Value :=
  match (split o).2 with
  | some text => read text
  | none => .ok .null

/-- A value that is set down for a key, in the file or by an override. -/
inductive Gives (file : Option (List UInt8)) (overrides : List String) (key : String)
    (v : Yaml.Value) : Prop where
  | file {entries : List (Yaml.Value × Yaml.Value)} (held : Holds file (.mapping entries))
    (entry : (.text key, v) ∈ entries)
  | override {o : String} (given : o ∈ overrides) (path : keyPath (split o).1 = [key])
    (value : overrideValue o = .ok v)

/-- What overrides make of a key: a value, or a collection. Settings below a key make it a
mapping. -/
inductive Makes (overrides : List String) (key : String) : Given → Prop where
  | scalar {o : String} {v : Yaml.Value} (given : o ∈ overrides)
    (path : keyPath (split o).1 = [key]) (value : overrideValue o = .ok v) :
    Makes overrides key (.scalar v)
  | sequence {o : String} {items : List Yaml.Value} (given : o ∈ overrides)
    (path : keyPath (split o).1 = [key]) (value : overrideValue o = .ok (.sequence items)) :
    Makes overrides key .sequence
  | mapping {o : String} {entries : List (Yaml.Value × Yaml.Value)} (given : o ∈ overrides)
    (path : keyPath (split o).1 = [key]) (value : overrideValue o = .ok (.mapping entries)) :
    Makes overrides key .mapping
  | below {o next : String} {rest : List String} (given : o ∈ overrides)
    (path : keyPath (split o).1 = key :: next :: rest) : Makes overrides key .mapping

/-- A value that is neither a collection nor a text nor null. -/
def Lone : Yaml.Value → Prop
  | .null | .text _ | .sequence _ | .mapping _ => False
  | _ => True

/-- The file cannot be read for settings: it is no text, its text or the text that it holds is
refused for a tag or an escape, or the text that it holds is a lone value. -/
inductive Illegible (file : Option (List UInt8)) : LoadError → Prop where
  | encoding {content : List UInt8} (given : file = some content)
    (broken : String.fromUTF8? ⟨content.toArray⟩ = none) : Illegible file .notUtf8
  | document {content : List UInt8} {text : String} {reason : Yaml.Failure}
    (given : file = some content) (decoded : decode content = .ok text)
    (refused : Yaml.Value.ofText text = .error reason) (special : reason ≠ .malformed) :
    Illegible file (.document reason)
  | inner {text : String} {reason : Yaml.Failure} (reads : Reads file (.text text))
    (refused : Yaml.Value.ofText text = .error reason) (special : reason ≠ .malformed) :
    Illegible file (.document reason)
  | lone {text : String} {v : Yaml.Value} (reads : Reads file (.text text))
    (again : Yaml.Value.ofText text = .ok v) (lone : Lone v) : Illegible file .notSettings

/-- The errors of loading that are not told as an invalid configuration, with what brings each of
them about. -/
inductive Escapes (file : Option (List UInt8)) (overrides : List String) : LoadError → Prop where
  | file {e : LoadError} (illegible : Illegible file e) : Escapes file overrides e
  | override {o text : String} {reason : Yaml.Failure} (given : o ∈ overrides)
    (behind : (split o).2 = some text) (refused : Yaml.Value.ofText text = .error reason)
    (special : reason ≠ .malformed) : Escapes file overrides (.document reason)
  | list {items : List Yaml.Value} (held : Holds file (.sequence items)) :
    Escapes file overrides .listForMapping
  | clash {key : String} (list : Makes overrides key .sequence)
    (mapping : Makes overrides key .mapping) : Escapes file overrides .listForMapping
  | cadence {n : Int} (given : Gives file overrides Field.cadence.name (.int n))
    (huge : Numeral.float? n = none) : Escapes file overrides .tooLarge
  | reference {draft : Draft} {piece : Piece} {fuel : Nat} {n : Int}
    (gathered : gather file overrides = .ok draft) (template : draft .cadence = .template [piece])
    (leads : draft.pieceValue fuel piece = .ok (.int n)) (huge : Numeral.float? n = none) :
    Escapes file overrides .tooLarge
  | emptyKey {o : String} (given : o ∈ overrides) (nameless : keyPath (split o).1 = []) :
    Escapes file overrides .emptyKey

theorem ends_decode (content : List UInt8) :
    Ends (fun text => decode content = .ok text)
      (Told fun e => e = .notUtf8 ∧ String.fromUTF8? ⟨content.toArray⟩ = none)
      (decode content) := by
  rw [decode]
  cases String.fromUTF8? ⟨content.toArray⟩ with
  | none => exact .error (.special ⟨rfl, rfl⟩)
  | some text => exact .value rfl

theorem ends_read (text : String) :
    Ends (fun v => Yaml.Value.ofText text = .ok v)
      (Told fun e => ∃ reason, e = .document reason ∧ Yaml.Value.ofText text = .error reason ∧
        reason ≠ .malformed) (read text) := by
  rw [read]
  cases Yaml.Value.ofText text with
  | error reason =>
    change Ends _ _ (.error (LoadError.ofFailure reason))
    rw [LoadError.ofFailure]
    split
    · exact ends_unreadable
    · exact .error (.special ⟨reason, rfl, rfl, by assumption⟩)
  | ok v => exact .value rfl

theorem read_of_ok {text : String} {v : Yaml.Value} (value : Yaml.Value.ofText text = .ok v) :
    read text = .ok v := by
  rw [read, value]
  rfl

theorem ends_checkHolds (v : Yaml.Value) {kind : LoadError → Prop} :
    Ends (fun _ => True) (Told kind) (checkHolds v) := by
  rw [checkHolds]
  split
  · exact .value trivial
  · exact ends_unreadable

theorem ends_assign (draft : Draft) (key v : Yaml.Value) :
    Ends (fun _ => True)
      (Told fun e => e = .tooLarge ∧ key = .text Field.cadence.name ∧
        ∃ n, v = .int n ∧ Numeral.float? n = none) (assign draft key v) := by
  unfold assign
  split
  case h_2 => exact ends_unreadable
  case h_1 name =>
    split
    case h_2 => exact ends_unreadable
    case h_1 field found =>
      cases assigned : draft.assign field v with
      | ok => exact .value trivial
      | error misfit =>
        cases misfit with
        | wrongKind => exact ends_unreadable
        | tooLarge =>
          obtain ⟨rfl, n, rfl, huge⟩ := draft_assign_eq_tooLarge assigned
          have named : Field.cadence.name = name := by simpa using List.find?_some found
          exact .error (.special ⟨rfl, by rw [named], n, rfl, huge⟩)

theorem ends_mergeEntries (draft : Draft) {v : Yaml.Value} {kind : LoadError → Prop}
    (list : (∀ entries, v ≠ .mapping entries) → v ≠ .null → kind .listForMapping)
    (cadence : ∀ entries n, v = .mapping entries → (.text Field.cadence.name, .int n) ∈ entries →
      Numeral.float? n = none → kind .tooLarge) :
    Ends (fun _ => True) (Told kind) (mergeEntries draft v) := by
  unfold mergeEntries
  refine (ends_checkHolds v).bind fun _ _ => ?_
  split
  case h_1 entries =>
    refine Ends.foldlM (fun d e mem _ => ?_) trivial
    refine (ends_assign d e.1 e.2).told ?_
    rintro - ⟨rfl, key, n, value, huge⟩
    exact cadence entries n rfl (by rwa [← key, ← value]) huge
  case h_2 => exact .value trivial
  case h_3 other null => exact .error (.special (list other null))

/-- A file that is one text is read twice; its list or its lone value may be the inner one. -/
theorem ends_mergeFile (draft : Draft) {v : Yaml.Value} (reads : Reads file v) :
    Ends (fun _ => True) (Told (Escapes file overrides)) (mergeFile draft v) := by
  have entries {held : List (Yaml.Value × Yaml.Value)} (holds : Holds file (.mapping held)) :
      Ends (fun _ => True) (Told (Escapes file overrides))
        (mergeEntries draft (.mapping held)) := by
    apply ends_mergeEntries
    · intro other
      exact absurd rfl (other held)
    · intro entries n same mem huge
      cases same
      exact .cadence (.file holds mem) huge
  have list {items : List Yaml.Value} (holds : Holds file (.sequence items)) :
      Ends (fun _ => True) (Told (Escapes file overrides))
        (mergeEntries draft (.sequence items)) := by
    apply ends_mergeEntries
    · exact fun _ _ => .list holds
    · rintro - n ⟨⟩
  unfold mergeFile
  split
  case h_1 =>
    apply ends_mergeEntries
    · exact fun _ null => absurd rfl null
    · rintro - n ⟨⟩
  case h_2 => exact entries (.whole reads)
  case h_3 => exact list (.whole reads)
  case h_5 => exact ends_unreadable
  case h_4 text =>
    refine ((ends_read text).told ?_).bind fun again value => ?_
    · rintro - ⟨reason, rfl, refused, special⟩
      exact .file (.inner reads refused special)
    split
    case h_1 key =>
      -- a text again is a key without a value, which is no number
      apply ends_mergeEntries
      · intro other
        exact absurd rfl (other _)
      · rintro - n ⟨⟩ mem huge
        cases mem with
        | tail _ none => cases none
    case h_2 => exact .value trivial
    case h_3 => exact entries (.inner reads value)
    case h_4 => exact list (.inner reads value)
    case h_5 text null mapping sequence =>
      refine .error (.special (.file (.lone reads value ?_)))
      cases again <;> simp_all [Lone]

theorem ends_overrideValue {o : String} (given : o ∈ overrides) :
    Ends (fun v => overrideValue o = .ok v) (Told (Escapes file overrides)) (overrideValue o) := by
  unfold overrideValue
  split
  case h_1 text behind =>
    refine (ends_read text).imp (fun _ value => read_of_ok value) fun _ told => told.imp ?_
    rintro - ⟨reason, rfl, refused, special⟩
    exact .override given behind refused special
  case h_2 => exact .value rfl

theorem mem_of_lookup {layer : List (String × Given)} {key : String} {g : Given}
    (found : layer.lookup key = some g) : (key, g) ∈ layer := by
  obtain ⟨before, after, rfl, -⟩ := List.lookup_eq_some_iff.mp found
  simp

theorem mem_put {layer : List (String × Given)} {key : String} {g : Given} {e : String × Given}
    (mem : e ∈ put layer key g) : e ∈ layer ∨ e = (key, g) := by
  unfold put at mem
  split at mem
  · obtain ⟨old, earlier, rfl⟩ := List.mem_map.mp mem
    split
    · exact .inr rfl
    · exact .inl earlier
  · simpa using mem

def Made (overrides : List String) (layer : List (String × Given)) : Prop :=
  ∀ e ∈ layer, Makes overrides e.1 e.2

theorem Made.put {layer : List (String × Given)} {key : String} {g : Given}
    (made : Made overrides layer) (makes : Makes overrides key g) :
    Made overrides (put layer key g) := by
  intro e mem
  rcases mem_put mem with old | rfl
  · exact made e old
  · exact makes

theorem makes_givenOf {o key : String} {v : Yaml.Value} (given : o ∈ overrides)
    (path : keyPath (split o).1 = [key]) (value : overrideValue o = .ok v) :
    Makes overrides key (givenOf v) := by
  unfold givenOf
  split
  · exact .mapping given path value
  · exact .sequence given path value
  · exact .scalar given path value

theorem ends_addGiven {layer : List (String × Given)} (made : Made overrides layer) {o : String}
    {v : Yaml.Value} (given : o ∈ overrides) (value : overrideValue o = .ok v) :
    Ends (Made overrides) (Told (Escapes file overrides))
      (addGiven layer (keyPath (split o).1) v) := by
  have checked {later : List (String × Given)} (good : Made overrides later) :
      Ends (Made overrides) (Told (Escapes file overrides)) ((checkHolds v).map fun _ => later) :=
    ((ends_checkHolds v).imp (fun _ _ => good) fun _ e => e).map
  generalize path : keyPath (split o).1 = names
  unfold addGiven
  split
  case h_1 => exact .error (.special (.emptyKey given path))
  case h_2 key =>
    have makes := makes_givenOf given path value
    split
    case h_1 earlier later =>
      rw [later] at makes
      exact .error (.special (.clash makes (made _ (mem_of_lookup earlier))))
    case h_2 earlier later =>
      rw [later] at makes
      exact .error (.special (.clash (made _ (mem_of_lookup earlier)) makes))
    case h_3 => exact (ends_checkHolds v).bind fun _ _ => .value (made.put makes)
  case h_3 key rest longer =>
    obtain ⟨next, more, rfl⟩ := List.exists_cons_of_ne_nil longer
    have makes : Makes overrides key .mapping := .below given path
    split
    case h_1 | h_2 => exact checked made
    case h_3 =>
      split
      · exact ends_unreadable
      · exact checked (made.put makes)
    case h_4 => exact checked (made.put makes)

theorem addOverride_eq (layer : List (String × Given)) (o : String) :
    addOverride layer o = overrideValue o >>= addGiven layer (keyPath (split o).1) := by
  rw [addOverride, overrideValue]
  rcases split o with ⟨key, _ | text⟩ <;> rfl

theorem ends_mergeOverrides (draft : Draft) (file : Option (List UInt8)) (overrides : List String) :
    Ends (fun _ => True) (Told (Escapes file overrides)) (mergeOverrides draft overrides) := by
  unfold mergeOverrides
  have layered : Ends (Made overrides) (Told (Escapes file overrides))
      (overrides.foldlM addOverride []) := by
    have start : Made overrides [] := by
      intro e mem
      cases mem
    refine Ends.foldlM (fun layer o given made => ?_) start
    rw [addOverride_eq]
    exact (ends_overrideValue given).bind fun v value => ends_addGiven made given value
  -- the layer is merged like a file, so each entry must be known to come from an override
  refine layered.bind fun layer made => Ends.foldlM (fun d e mem _ => ?_) trivial
  obtain ⟨key, g⟩ := e
  split
  case h_2 => exact ends_unreadable
  case h_1 v scalar =>
    have makes := made _ mem
    refine (ends_assign d (.text key) v).told ?_
    rintro - ⟨rfl, named, n, rfl, huge⟩
    cases named
    cases scalar
    cases makes with
    | scalar given path value => exact .cadence (.override given path value) huge

theorem ends_gather (file : Option (List UInt8)) (overrides : List String) :
    Ends (fun draft => gather file overrides = .ok draft) (Told (Escapes file overrides))
      (gather file overrides) := by
  suffices ends : Ends (fun _ => True) (Told (Escapes file overrides)) (gather file overrides) from
    ends.exact.imp (fun _ h => h.1) fun _ e => e
  unfold gather
  cases file with
  | none => exact ends_mergeOverrides _ none overrides
  | some content =>
    have decoded : Ends (fun text => decode content = .ok text)
        (Told (Escapes (some content) overrides)) (decode content) := by
      refine (ends_decode content).told ?_
      rintro - ⟨rfl, broken⟩
      exact .file (.encoding rfl broken)
    refine decoded.bind fun text decoded => ?_
    have value : Ends (fun v => Yaml.Value.ofText text = .ok v)
        (Told (Escapes (some content) overrides)) (read text) := by
      refine (ends_read text).told ?_
      rintro - ⟨reason, rfl, refused, special⟩
      exact .file (.document rfl decoded refused special)
    refine value.bind fun v value => ?_
    refine (ends_mergeFile _ ⟨content, text, rfl, decoded, value⟩).bind fun draft _ => ?_
    exact ends_mergeOverrides draft (some content) overrides

theorem ends_merge (file : Option (List UInt8)) (overrides : List String) :
    Ends (fun _ => True) (Told (Escapes file overrides)) (merge file overrides) := by
  unfold merge
  refine (ends_gather file overrides).bind fun draft gathered => ?_
  refine (ends_resolve draft).mapError fun e blames => ?_
  cases e with
  | wrongKind => exact .invalid _
  | tooLarge =>
    obtain ⟨piece, fuel, n, template, leads, huge⟩ := blames rfl
    exact .special (.reference gathered template leads huge)

theorem load_eq (file : Option (List UInt8)) (overrides : List String) :
    load (file.map .ok) overrides =
      merge file overrides >>= fun config => config.validate.mapError .invalid := by
  cases file <;> rfl

theorem ends_load (file : Option (List UInt8)) (overrides : List String) :
    Ends Usable (Told (Escapes file overrides)) (load (file.map .ok) overrides) := by
  rw [load_eq]
  refine (ends_merge file overrides).bind fun config _ => ?_
  cases valid : config.validate with
  | error reason => exact .error (.invalid reason)
  | ok checked =>
    obtain ⟨rfl, usable⟩ := validate_eq_ok_iff.mp valid
    exact .value usable

theorem usable_of_load {file : Option (Except FileError (List UInt8))}
    (loaded : load file overrides = .ok config) : config.Usable := by
  have usable (content : Option (List UInt8))
      (known : load (content.map .ok) overrides = .ok config) : config.Usable := by
    have ends := ends_load content overrides
    rw [known] at ends
    cases ends with
    | value usable => exact usable
  rcases file with _ | ⟨reason⟩ | content
  · exact usable none loaded
  · cases reason <;> cases loaded
  · exact usable (some content) loaded

end Config

end Chip8
