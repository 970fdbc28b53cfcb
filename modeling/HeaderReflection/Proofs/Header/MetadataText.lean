import HeaderReflection.Header.Metadata
import HeaderReflection.Proofs.Header.AttributeText
import HeaderReflection.Proofs.Outcome

/-!
# Written metadata

What a header can say about a type or a property, how it is written, and what follows from it. Every attribute has a key
of its own, and in a list where no key comes twice the order does not matter: each part of the metadata is what the one
attribute with its key says, or its default.

## Main definitions

- `TypeAttribute`, `PropertyAttribute`: what attributes say, with `key` and `value` for how they are written.
- `ListValue`: values that are lists.
- `Declaration.described`, `Property.described`: the metadata that attributes describe.

## Main results

- `valueList_text`: a written list of values is read back.
- `Declaration.withAttributes_spell`, `Property.withAttributes_spell`: written metadata is read back.
-/

namespace HeaderReflection

/-- The words for a flag that is `true` or `false`. -/
def truthText (flag : Bool) : Text := if flag then "true" else "false"

/-- The words for a flag that is `yes` or `no`. -/
def consentText (flag : Bool) : Text := if flag then "yes" else "no"

theorem trueFalse_truthText (key : Text) (flag : Bool) : trueFalse key (truthText flag) = .ok flag := by
  cases flag <;> rfl

theorem isValue_of_isIdentifier {value : Text} (h : Text.isIdentifier value = true) : IsValue value where
  quoted := ⟨Text.not_mem_of_isIdentifier h (by decide), Text.not_mem_of_isIdentifier h (by decide),
    Text.not_mem_of_isIdentifier h (by decide)⟩
  unquote := unquote_of_isIdentifier h

/-- In a list where a key does not occur, nothing is found under it. -/
theorem findSome?_of_fresh {α β γ : Type} {key : α → γ} {find : α → Option β} {k : γ} {as : List α}
    (hfind : ∀ a b, find a = some b → key a = k) (h : k ∉ as.map key) : as.findSome? find = none := by
  rw [List.findSome?_eq_none_iff]
  intro a ha
  cases hb : find a with
  | none => rfl
  | some b => exact absurd (hfind a b hb ▸ List.mem_map_of_mem ha) h

theorem keyValue_keyed {key value : Text} (hkey : Text.isIdentifier key = true) (hvalue : unquote value = value) :
    keyValue (keyed key value) = .ok (key, value) := by
  unfold keyValue
  rw [keyValue?_keyed hkey hvalue]

/-- **Attributes one after the other**: if a further attribute with a new key describes its own part, then a list in
which no key comes twice describes what its attributes describe. -/
theorem foldlM_of_fresh {σ α : Type} {key : α → Text} (spell : α → Text) (describe : List α → σ)
    (take : σ → Text → Except AttributeFault σ) {as : List α} (hnodup : (as.map key).Nodup)
    (hstep : ∀ before, ∀ a ∈ as, key a ∉ before.map key →
      take (describe before) (spell a) = .ok (describe (before ++ [a]))) :
    (as.map spell).foldlM take (describe []) = .ok (describe as) := by
  -- from the end, so that all keys before an attribute are known when it is taken
  induction as using List.reverseRecOn with
  | nil => rfl
  | append_singleton as a ih =>
    rw [List.map_append, List.nodup_append] at hnodup
    obtain ⟨hnodup, -, hapart⟩ := hnodup
    have hfresh : key a ∉ as.map key := fun hmem => hapart _ hmem _ (by simp) rfl
    have hrest := ih hnodup fun before b hb => hstep before b (List.mem_append_left _ hb)
    rw [List.map_append, List.foldlM_append]
    refine bind_eq_ok.mpr ⟨_, hrest, ?_⟩
    rw [List.map_singleton, List.foldlM_cons, hstep as a (by simp) hfresh]
    rfl

/-! ## §1 Types -/

/-- The parts of a type's metadata that are texts. -/
inductive TypeKey where
  | copy
  | compare
  | serialize
  | deserialize
  | toText
  | instantiate
  | loadDerive
  | architype
  | renderConstructor
  | renderDestructor
  deriving DecidableEq, Repr

def TypeKey.name : TypeKey → Text
  | .copy => "copy_handler"
  | .compare => "compare_handler"
  | .serialize => "serialize_handler"
  | .deserialize => "deserialize_handler"
  | .toText => "to_string_handler"
  | .instantiate => "instantiate_handler"
  | .loadDerive => "load_derive_handler"
  | .architype => "architype"
  | .renderConstructor => "render_constructor"
  | .renderDestructor => "render_destructor"

theorem TypeKey.isIdentifier_name (key : TypeKey) : Text.isIdentifier key.name = true := by
  cases key <;> decide

/-- What an attribute says about a type. -/
inductive TypeAttribute where
  | text (key : TypeKey) (value : Text)
  | builtIn (flag : Bool)
  | scriptSupport (flag : Bool)

namespace TypeAttribute

def key : TypeAttribute → Text
  | text key _ => key.name
  | builtIn _ => "built_in"
  | scriptSupport _ => "script_support"

def value : TypeAttribute → Text
  | text _ value => value
  | builtIn flag | scriptSupport flag => truthText flag

def spell (a : TypeAttribute) : Text := keyed a.key a.value

/-- What can be said about a type of a kind: only external types can be built in. -/
def Legal (kind : Kind) : TypeAttribute → Prop
  | text _ value => IsValue value
  | builtIn _ => kind = .external
  | scriptSupport _ => True

def text? (key : TypeKey) : TypeAttribute → Option Text
  | text k value => if k = key then some value else none
  | _ => none

def builtIn? : TypeAttribute → Option Bool
  | builtIn flag => some flag
  | _ => none

def scriptSupport? : TypeAttribute → Option Bool
  | scriptSupport flag => some flag
  | _ => none

def textOf (as : List TypeAttribute) (key : TypeKey) : Option Text := as.findSome? (text? key)

theorem isIdentifier_key (a : TypeAttribute) : Text.isIdentifier a.key = true := by
  cases a with
  | text key value => exact key.isIdentifier_name
  | builtIn flag => rfl
  | scriptSupport flag => rfl

theorem Legal.isValue {kind : Kind} {a : TypeAttribute} (h : a.Legal kind) : IsValue a.value := by
  cases a with
  | text key value => exact h
  | builtIn flag => exact isValue_of_isIdentifier (by cases flag <;> decide)
  | scriptSupport flag => exact isValue_of_isIdentifier (by cases flag <;> decide)

end TypeAttribute

/-- A type with the metadata that attributes describe. -/
def Declaration.described (d : Declaration) (as : List TypeAttribute) : Declaration :=
  { d with
    handlers := {
      copy := TypeAttribute.textOf as .copy
      compare := TypeAttribute.textOf as .compare
      serialize := TypeAttribute.textOf as .serialize
      deserialize := TypeAttribute.textOf as .deserialize
      toText := TypeAttribute.textOf as .toText
      instantiate := TypeAttribute.textOf as .instantiate
      loadDerive := TypeAttribute.textOf as .loadDerive }
    architype := TypeAttribute.textOf as .architype
    renderConstructor := TypeAttribute.textOf as .renderConstructor
    renderDestructor := TypeAttribute.textOf as .renderDestructor
    builtIn := (as.findSome? TypeAttribute.builtIn?).getD false
    scriptSupport := (as.findSome? TypeAttribute.scriptSupport?).getD false }

def TypeKey.set (d : Declaration) (value : Text) : TypeKey → Declaration
  | .copy => { d with handlers.copy := some value }
  | .compare => { d with handlers.compare := some value }
  | .serialize => { d with handlers.serialize := some value }
  | .deserialize => { d with handlers.deserialize := some value }
  | .toText => { d with handlers.toText := some value }
  | .instantiate => { d with handlers.instantiate := some value }
  | .loadDerive => { d with handlers.loadDerive := some value }
  | .architype => { d with architype := some value }
  | .renderConstructor => { d with renderConstructor := some value }
  | .renderDestructor => { d with renderDestructor := some value }

theorem Declaration.withKey_name (d : Declaration) (key : TypeKey) (value : Text) :
    d.withKey key.name value = .ok (key.set d value) := by
  cases key <;> rfl

theorem Declaration.withKey_builtIn {d : Declaration} (h : d.kind = .external) (flag : Bool) :
    d.withKey "built_in" (truthText flag) = .ok { d with builtIn := flag } := by
  have hread : ∀ value : Text, d.withKey "built_in" value = (trueFalse "built_in" value >>= fun flag =>
      if d.kind = .external then .ok { d with builtIn := flag } else .error (.onlyOnExternal "built_in")) :=
    fun _ => rfl
  rw [hread, trueFalse_truthText]
  exact if_pos h

theorem Declaration.withKey_scriptSupport (d : Declaration) (flag : Bool) :
    d.withKey "script_support" (truthText flag) = .ok { d with scriptSupport := flag } := by
  cases flag <;> rfl

open TypeAttribute in
/-- **A further attribute with a new key** describes its own part of the metadata and leaves the others. -/
theorem Declaration.withKey_described {d : Declaration} {as : List TypeAttribute} {a : TypeAttribute}
    (hlegal : a.Legal d.kind) (hfresh : a.key ∉ as.map TypeAttribute.key) :
    (d.described as).withKey a.key a.value = .ok (d.described (as ++ [a])) := by
  cases a with
  | text key value =>
    have hnone : as.findSome? (text? key) = none := by
      refine findSome?_of_fresh (fun a b hb => ?_) hfresh
      cases a <;> simp [text?] at hb
      simp [TypeAttribute.key, hb]
    refine (Declaration.withKey_name _ key value).trans ?_
    cases key <;> simp [TypeKey.set, described, textOf, text?, builtIn?, scriptSupport?, hnone]
  | builtIn flag =>
    have hnone : as.findSome? builtIn? = none := by
      refine findSome?_of_fresh (fun a b hb => ?_) hfresh
      cases a <;> simp [builtIn?] at hb
      rfl
    refine (Declaration.withKey_builtIn (d := d.described as) hlegal flag).trans ?_
    simp [described, textOf, text?, builtIn?, scriptSupport?, hnone]
  | scriptSupport flag =>
    have hnone : as.findSome? scriptSupport? = none := by
      refine findSome?_of_fresh (fun a b hb => ?_) hfresh
      cases a <;> simp [scriptSupport?] at hb
      rfl
    refine (Declaration.withKey_scriptSupport _ flag).trans ?_
    simp [described, textOf, text?, builtIn?, scriptSupport?, hnone]

/-- **Metadata of a type is read back**: every part of it is what the attribute with its key says. -/
theorem Declaration.withAttributes_spell {d : Declaration} (hplain : d.described [] = d) {as : List TypeAttribute}
    (hlegal : ∀ a ∈ as, a.Legal d.kind) (hnodup : (as.map TypeAttribute.key).Nodup) :
    d.withAttributes (as.map TypeAttribute.spell) = .ok (d.described as) := by
  have hrun := foldlM_of_fresh TypeAttribute.spell d.described withAttribute hnodup fun before a ha hfresh => by
      unfold Declaration.withAttribute TypeAttribute.spell
      rw [keyValue_keyed a.isIdentifier_key (hlegal a ha).isValue.unquote]
      exact Declaration.withKey_described (hlegal a ha) hfresh
  rwa [hplain] at hrun

/-! ## §2 Values that are lists -/

/-- Something with spaces and tabs around it. -/
structure Gapped (α : Type) where
  before : Gap := {}
  content : α
  after : Gap := {}

/-- A value that is a list: items with commas between them. -/
structure ListValue (α : Type) where
  items : List (Gapped α) := []

/-- What can be an item of a list. -/
structure IsListItem (item : Text) : Prop extends IsValue item where
  ne_nil : item ≠ []
  noComma : Text.byte ',' ∉ item

namespace ListValue

variable {α : Type} (spell : α → Text)

/-- The items of a list in their order. -/
def contents (list : ListValue α) : List α := list.items.map (·.content)

def piece (item : Gapped α) : Text := item.before.text ++ spell item.content ++ item.after.text

def text (list : ListValue α) : Text := Text.joinWith [Text.byte ','] (list.items.map (piece spell))

variable {spell}

theorem not_mem_piece {b : UInt8} (hb : isGapByte b = false) {item : Gapped α} (h : b ∉ spell item.content) :
    b ∉ piece spell item := by
  simp only [piece, List.mem_append, not_or]
  exact ⟨⟨item.before.not_mem hb, h⟩, item.after.not_mem hb⟩

theorem unquote_piece {item : Gapped α} (h : unquote (spell item.content) = spell item.content) :
    unquote (piece spell item) = spell item.content :=
  unquote_pad h item.before.isBlanks item.after.isBlanks

/-- **A written list of values is read back.** -/
theorem valueList_text {list : ListValue α} (h : ∀ a ∈ list.contents, IsListItem (spell a)) :
    valueList (list.text spell) = list.contents.map spell := by
  have hitem : ∀ item ∈ list.items, IsListItem (spell item.content) := fun item hitem => h _ (List.mem_map_of_mem hitem)
  unfold valueList text contents
  by_cases hne : list.items = []
  · rw [hne]
    rfl
  · have hpieces : list.items.map (unquote ∘ piece spell) = list.items.map (spell ∘ (·.content)) :=
      List.map_congr_left fun item hi => unquote_piece (hitem item hi).unquote
    rw [Text.splitOn_joinWith (by simpa using hne), List.map_map, List.map_map, hpieces, List.filter_eq_self]
    · intro value hvalue
      obtain ⟨item, hi, rfl⟩ := List.mem_map.mp hvalue
      simpa using (hitem item hi).ne_nil
    · intro p hp
      obtain ⟨item, hi, rfl⟩ := List.mem_map.mp hp
      exact not_mem_piece (by decide) (hitem item hi).noComma

theorem quotedText_text {list : ListValue α} (h : ∀ a ∈ list.contents, IsListItem (spell a)) :
    QuotedText (list.text spell) := by
  have hnot : ∀ {b : UInt8}, isGapByte b = false → b ≠ Text.byte ',' → (∀ a ∈ list.contents, b ∉ spell a) →
      b ∉ list.text spell := by
    intro b hgap hcomma hb hmem
    rcases Text.mem_joinWith hmem with hmem | ⟨p, hp, hmem⟩
    · exact hcomma (List.mem_singleton.mp hmem)
    · obtain ⟨item, hi, rfl⟩ := List.mem_map.mp hp
      exact not_mem_piece hgap (hb _ (List.mem_map_of_mem hi)) hmem
  exact ⟨hnot (by decide) (by decide) fun a ha => (h a ha).quoted.1,
    hnot (by decide) (by decide) fun a ha => (h a ha).quoted.2.1,
    hnot (by decide) (by decide) fun a ha => (h a ha).quoted.2.2⟩

end ListValue

/-! ## §3 Properties -/

/-- The parts of a property's metadata that are texts. -/
inductive PropertyKey where
  | serialize
  | deserialize
  | loadDerive
  | compare
  | copy
  | instantiate
  | gpuData
  | category
  deriving DecidableEq, Repr

def PropertyKey.name : PropertyKey → Text
  | .serialize => "property_ser_handler"
  | .deserialize => "property_des_handler"
  | .loadDerive => "property_load_derive_handler"
  | .compare => "property_compare_handler"
  | .copy => "property_copy_handler"
  | .instantiate => "property_instantiate_handler"
  | .gpuData => "gpu_data"
  | .category => "category"

/-- The flags of a property. Some are `true` or `false` and some `yes` or `no`. -/
inductive PropertyFlag where
  | serializable
  | default
  | ref
  | copyable
  | updatable
  deriving DecidableEq, Repr

def PropertyFlag.name : PropertyFlag → Text
  | .serializable => "serializable"
  | .default => "default"
  | .ref => "ref"
  | .copyable => "copyable"
  | .updatable => "updatable"

def PropertyFlag.value (flag : Bool) : PropertyFlag → Text
  | .serializable | .default | .ref => truthText flag
  | .copyable | .updatable => consentText flag

inductive InvalidationTarget where
  | render
  | transform
  deriving DecidableEq, Repr

def InvalidationTarget.name : InvalidationTarget → Text
  | .render => "render"
  | .transform => "transform"

inductive SetterCheck where
  | notSame
  deriving DecidableEq, Repr

def SetterCheck.name : SetterCheck → Text
  | .notSame => "not_same"

/-- What an attribute says about a property. -/
inductive PropertyAttribute where
  | text (key : PropertyKey) (value : Text)
  | flag (key : PropertyFlag) (value : Bool)
  | access (mode : Access)
  | invalidates (targets : ListValue InvalidationTarget)
  | check (checks : ListValue SetterCheck)
  | hint (hints : ListValue Text)

namespace PropertyAttribute

def key : PropertyAttribute → Text
  | text key _ => key.name
  | flag key _ => key.name
  | access _ => "access"
  | invalidates _ => "invalidates"
  | check _ => "check"
  | hint _ => "hint"

def value : PropertyAttribute → Text
  | text _ value => value
  | flag key value => key.value value
  | access mode => mode.spelling
  | invalidates targets => targets.text InvalidationTarget.name
  | check checks => checks.text SetterCheck.name
  | hint hints => hints.text id

def spell (a : PropertyAttribute) : Text := keyed a.key a.value

/-- What can be said about a property. Whatever the value is, unquoting does not change it. -/
def Legal : PropertyAttribute → Prop
  | text _ value => IsValue value
  | flag _ _ => True
  | access mode => mode ∈ Access.modes
  | a@(invalidates _) | a@(check _) => unquote a.value = a.value
  | a@(hint hints) => unquote a.value = a.value ∧ ∀ h ∈ hints.contents, IsListItem h

def text? (key : PropertyKey) : PropertyAttribute → Option Text
  | text k value => if k = key then some value else none
  | _ => none

def flag? (key : PropertyFlag) : PropertyAttribute → Option Bool
  | flag k value => if k = key then some value else none
  | _ => none

def access? : PropertyAttribute → Option Access
  | access mode => some mode
  | _ => none

def invalidates? : PropertyAttribute → Option (List InvalidationTarget)
  | invalidates targets => some targets.contents
  | _ => none

def check? : PropertyAttribute → Option (List SetterCheck)
  | check checks => some checks.contents
  | _ => none

def hint? : PropertyAttribute → Option (List Text)
  | hint hints => some hints.contents
  | _ => none

end PropertyAttribute

open PropertyAttribute in
/-- A property with the metadata that attributes describe. -/
def Property.described (p : Property) (as : List PropertyAttribute) : Property :=
  let text := fun key => as.findSome? (text? key)
  let flag := fun key => as.findSome? (flag? key)
  let invalidated := (as.findSome? invalidates?).getD []
  { p with
    access := (as.findSome? access?).getD .no
    category := (text .category).getD []
    hint := Text.joinWith "," (((as.findSome? hint?).getD []).map fun hint => "\"" ++ hint ++ "\"")
    gpuData := text .gpuData
    serializable := (flag .serializable).getD false
    hasDefault := (flag .default).getD false
    copyable := (flag .copyable).getD true
    updatable := (flag .updatable).getD true
    ref := (flag .ref).getD false
    checkNotSame := ((as.findSome? check?).getD []).contains .notSame
    invalidatesRender := invalidated.contains .render
    invalidatesTransform := invalidated.contains .transform
    handlers := {
      serialize := text .serialize
      deserialize := text .deserialize
      compare := text .compare
      copy := text .copy
      instantiate := text .instantiate
      loadDerive := text .loadDerive } }

theorem InvalidationTarget.isIdentifier_name (target : InvalidationTarget) :
    Text.isIdentifier target.name = true := by
  cases target <;> decide

theorem SetterCheck.isIdentifier_name (check : SetterCheck) : Text.isIdentifier check.name = true := by
  cases check
  decide

theorem isListItem_of_isIdentifier {item : Text} (h : Text.isIdentifier item = true) : IsListItem item where
  toIsValue := isValue_of_isIdentifier h
  ne_nil := Text.ne_nil_of_isIdentifier h
  noComma := Text.not_mem_of_isIdentifier h (by decide)

namespace PropertyAttribute

theorem isIdentifier_key (a : PropertyAttribute) : Text.isIdentifier a.key = true := by
  cases a with
  | text key value => cases key <;> rfl
  | flag key value => cases key <;> rfl
  | access mode => rfl
  | invalidates targets => rfl
  | check checks => rfl
  | hint hints => rfl

theorem isIdentifier_spelling : ∀ mode ∈ Access.modes, Text.isIdentifier mode.spelling = true := by decide

theorem Legal.isValue {a : PropertyAttribute} (h : a.Legal) : IsValue a.value := by
  cases a with
  | text key value => exact h
  | flag key value => exact isValue_of_isIdentifier (by cases key <;> cases value <;> decide)
  | access mode => exact isValue_of_isIdentifier (isIdentifier_spelling mode h)
  | invalidates targets =>
    exact ⟨ListValue.quotedText_text fun t _ => isListItem_of_isIdentifier t.isIdentifier_name, h⟩
  | check checks => exact ⟨ListValue.quotedText_text fun c _ => isListItem_of_isIdentifier c.isIdentifier_name, h⟩
  | hint hints => exact ⟨ListValue.quotedText_text h.2, h.1⟩

end PropertyAttribute

def PropertyKey.set (p : Property) (value : Text) : PropertyKey → Property
  | .serialize => { p with handlers.serialize := some value }
  | .deserialize => { p with handlers.deserialize := some value }
  | .loadDerive => { p with handlers.loadDerive := some value }
  | .compare => { p with handlers.compare := some value }
  | .copy => { p with handlers.copy := some value }
  | .instantiate => { p with handlers.instantiate := some value }
  | .gpuData => { p with gpuData := some value }
  | .category => { p with category := value }

def PropertyFlag.set (p : Property) (value : Bool) : PropertyFlag → Property
  | .serializable => { p with serializable := value }
  | .default => { p with hasDefault := value }
  | .ref => { p with ref := value }
  | .copyable => { p with copyable := value }
  | .updatable => { p with updatable := value }

namespace Property

theorem withKey_text (p : Property) (key : PropertyKey) (value : Text) :
    p.withKey key.name value = .ok (key.set p value) := by
  cases key <;> rfl

theorem withKey_flag (p : Property) (key : PropertyFlag) (value : Bool) :
    p.withKey key.name (key.value value) = .ok (key.set p value) := by
  cases key <;> cases value <;> rfl

theorem withKey_access (p : Property) {mode : Access} (h : mode ∈ Access.modes) :
    p.withKey "access" mode.spelling = .ok { p with access := mode } := by
  have hspelling : ∀ mode ∈ Access.modes, Access.ofSpelling? mode.spelling = some mode := by decide
  have hread : ∀ access, Access.ofSpelling? mode.spelling = some access →
      p.withKey "access" mode.spelling = .ok { p with access } := by
    intro access haccess
    unfold withKey
    iterate 8 rw [if_neg (by decide)]
    rw [if_pos rfl, haccess]
  exact hread mode (hspelling mode h)

/-- Every target of a list sets its flag, and no target clears one. -/
theorem foldlM_invalidating (p : Property) (targets : List InvalidationTarget) :
    (targets.map InvalidationTarget.name).foldlM invalidating p = .ok { p with
      invalidatesRender := p.invalidatesRender || targets.contains .render
      invalidatesTransform := p.invalidatesTransform || targets.contains .transform } := by
  induction targets generalizing p with
  | nil => simp [pure, Except.pure]
  | cons target targets ih =>
    rw [List.map_cons, List.foldlM_cons]
    cases target with
    | render =>
      refine bind_eq_ok.mpr ⟨{ p with invalidatesRender := true }, rfl, ?_⟩
      rw [ih]
      simp
    | transform =>
      refine bind_eq_ok.mpr ⟨{ p with invalidatesTransform := true }, rfl, ?_⟩
      rw [ih]
      simp

theorem withKey_invalidates (p : Property) (targets : ListValue InvalidationTarget) :
    p.withKey "invalidates" (targets.text InvalidationTarget.name) = .ok { p with
      invalidatesRender := p.invalidatesRender || targets.contents.contains .render
      invalidatesTransform := p.invalidatesTransform || targets.contents.contains .transform } := by
  have hread : p.withKey "invalidates" (targets.text InvalidationTarget.name) =
      (valueList (targets.text InvalidationTarget.name)).foldlM invalidating p := rfl
  rw [hread, ListValue.valueList_text fun t _ => isListItem_of_isIdentifier t.isIdentifier_name]
  exact foldlM_invalidating p targets.contents

theorem foldlM_checking (p : Property) (checks : List SetterCheck) :
    (checks.map SetterCheck.name).foldlM checking p = .ok { p with
      checkNotSame := p.checkNotSame || checks.contains .notSame } := by
  induction checks generalizing p with
  | nil => simp [pure, Except.pure]
  | cons check checks ih =>
    rw [List.map_cons, List.foldlM_cons]
    cases check with
    | notSame =>
      refine bind_eq_ok.mpr ⟨{ p with checkNotSame := true }, rfl, ?_⟩
      rw [ih]
      simp

theorem withKey_check (p : Property) (checks : ListValue SetterCheck) :
    p.withKey "check" (checks.text SetterCheck.name) = .ok { p with
      checkNotSame := p.checkNotSame || checks.contents.contains .notSame } := by
  have hread : p.withKey "check" (checks.text SetterCheck.name) =
      (valueList (checks.text SetterCheck.name)).foldlM checking p := rfl
  rw [hread, ListValue.valueList_text fun c _ => isListItem_of_isIdentifier c.isIdentifier_name]
  exact foldlM_checking p checks.contents

theorem withKey_hint (p : Property) {hints : ListValue Text} (h : ∀ hint ∈ hints.contents, IsListItem hint) :
    p.withKey "hint" (hints.text id) = .ok { p with
      hint := Text.joinWith "," (hints.contents.map fun hint => "\"" ++ hint ++ "\"") } := by
  have hread : p.withKey "hint" (hints.text id) = .ok { p with hint := quotedHints (hints.text id) } := rfl
  have hhints : ∀ hint ∈ hints.contents, IsListItem (id hint) := h
  rw [hread, quotedHints, ListValue.valueList_text hhints, List.map_id]

open PropertyAttribute in
/-- **A further attribute with a new key** describes its own part of the metadata and leaves the others. -/
theorem withKey_described {p : Property} {as : List PropertyAttribute} {a : PropertyAttribute} (hlegal : a.Legal)
    (hfresh : a.key ∉ as.map PropertyAttribute.key) :
    (p.described as).withKey a.key a.value = .ok (p.described (as ++ [a])) := by
  -- in each case the part is not described yet: an attribute that describes it has the same key
  cases a with
  | text key value =>
    have hnone : as.findSome? (text? key) = none := by
      refine findSome?_of_fresh (fun a b hb => ?_) hfresh
      cases a <;> simp [text?] at hb
      simp [PropertyAttribute.key, hb]
    refine (withKey_text _ key value).trans ?_
    cases key <;>
      simp [PropertyKey.set, described, text?, flag?, access?, invalidates?, check?, hint?, hnone]
  | flag key value =>
    have hnone : as.findSome? (flag? key) = none := by
      refine findSome?_of_fresh (fun a b hb => ?_) hfresh
      cases a <;> simp [flag?] at hb
      simp [PropertyAttribute.key, hb]
    refine (withKey_flag _ key value).trans ?_
    cases key <;>
      simp [PropertyFlag.set, described, text?, flag?, access?, invalidates?, check?, hint?, hnone]
  | access mode =>
    have hnone : as.findSome? access? = none := by
      refine findSome?_of_fresh (fun a b hb => ?_) hfresh
      cases a <;> simp [access?] at hb
      rfl
    refine (withKey_access _ hlegal).trans ?_
    simp [described, text?, flag?, access?, invalidates?, check?, hint?, hnone]
  | invalidates targets =>
    have hnone : as.findSome? invalidates? = none := by
      refine findSome?_of_fresh (fun a b hb => ?_) hfresh
      cases a <;> simp [invalidates?] at hb
      rfl
    refine (withKey_invalidates _ targets).trans ?_
    simp [described, text?, flag?, access?, invalidates?, check?, hint?, hnone]
  | check checks =>
    have hnone : as.findSome? check? = none := by
      refine findSome?_of_fresh (fun a b hb => ?_) hfresh
      cases a <;> simp [check?] at hb
      rfl
    refine (withKey_check _ checks).trans ?_
    simp [described, text?, flag?, access?, invalidates?, check?, hint?, hnone]
  | hint hints =>
    have hnone : as.findSome? hint? = none := by
      refine findSome?_of_fresh (fun a b hb => ?_) hfresh
      cases a <;> simp [hint?] at hb
      rfl
    refine (withKey_hint _ hlegal.2).trans ?_
    simp [described, text?, flag?, access?, invalidates?, check?, hint?, hnone]

/-- **Metadata of a property is read back**: every part of it is what the attribute with its key says. -/
theorem withAttributes_spell {p : Property} (hplain : p.described [] = p) {as : List PropertyAttribute}
    (hlegal : ∀ a ∈ as, a.Legal) (hnodup : (as.map PropertyAttribute.key).Nodup) :
    p.withAttributes (as.map PropertyAttribute.spell) = .ok (p.described as) := by
  have hrun := foldlM_of_fresh PropertyAttribute.spell p.described withAttribute hnodup fun before a ha hfresh => by
      unfold Property.withAttribute PropertyAttribute.spell
      rw [keyValue_keyed a.isIdentifier_key (hlegal a ha).isValue.unquote]
      exact withKey_described (hlegal a ha) hfresh
  rwa [hplain] at hrun

end Property

end HeaderReflection
