import HeaderReflection.Header.Reader
import HeaderReflection.Proofs.Header.MetadataText

/-!
# Attributes in any order

A list of attributes is taken one by one, and each attribute looks at nothing that another one says. So a list fails or
succeeds in every order alike. The attributes of a list in which no key comes twice write to parts of their own, so that
every order leads to the same type, property or package.

The argument is made once, for handlings of attributes that follow three laws: what an attribute does is the same
wherever it is taken, no change leads out of the scope of the handling, and changes with different keys commute. Types,
properties and packages are three such handlings.

## Main definitions

- `attributeKey?`: the key of an attribute.
- `Handling`: a way to take attributes that follows the laws.
- `TypeAttribute.change`, `PropertyChange`, `PackageChange`: what attributes do.
- `typeHandling`, `propertyHandling`, `packageHandling`: the three handlings.
- `AnyOrder`: two lists that succeed alike and lead to the same result.

## Main results

- `Handling.succeeds_of_perm`, `Handling.takeAll_of_perm`: another order succeeds, and leads to the same result.
- `Declaration.withKey_handled`, `Property.withKey_handled`, `Module.withKey_handled`: what an attribute does is the same
  wherever it is taken.
- `readProperty_of_perm`: the check of a default value does not depend on the order either.
- `attribute_order_irrelevant`: types, properties and packages.
-/

namespace HeaderReflection

/-! ## §1 Handlings -/

/-- A key without its spelling: the modules that a package depends on have two keys. -/
def canonicalKey (key : Text) : Text := if key = "dependancies" then "dependencies" else key

/-- The key of an attribute, if it has one. -/
def attributeKey? (item : Text) : Option Text := (keyValue? item).map fun (key, _) => canonicalKey key

section Handled

variable {σ E : Type} (scope : σ → Prop) (keyOf : E → Text) (change : E → σ → σ)

/-- What an attribute with a key does is the same everywhere in a scope: it is refused for the same reason, or it makes
the same change, and the change has the key of the attribute. -/
inductive Handled (key : Text) (run : σ → Except AttributeFault σ) : Prop where
  | refused (fault : AttributeFault) (h : ∀ s, scope s → run s = .error fault)
  | changed (e : E) (hkey : canonicalKey key = keyOf e) (h : ∀ s, scope s → run s = .ok (change e s))

variable {scope keyOf change}

theorem Handled.ite {key : Text} {c : Prop} [Decidable c] {run run' : σ → Except AttributeFault σ}
    (h : c → Handled scope keyOf change key run) (h' : ¬ c → Handled scope keyOf change key run') :
    Handled scope keyOf change key fun s => if c then run s else run' s := by
  by_cases hc : c
  · simpa only [if_pos hc] using h hc
  · simpa only [if_neg hc] using h' hc

theorem Handled.bind {α : Type} {key : Text} (value : Except AttributeFault α) {next : α → σ → Except AttributeFault σ}
    (h : ∀ a, Handled scope keyOf change key (next a)) :
    Handled scope keyOf change key fun s => value >>= fun a => next a s := by
  cases value with
  | error fault => exact .refused fault fun _ _ => rfl
  | ok a => exact h a

end Handled

/-- A way to take attributes one by one that does not depend on their order. -/
structure Handling (σ E : Type) where
  /-- Take an attribute. -/
  take : σ → Text → Except AttributeFault σ
  /-- Where attributes do what they do. -/
  scope : σ → Prop
  /-- The key of a change. -/
  key : E → Text
  /-- Make a change. -/
  change : E → σ → σ
  handled : ∀ item, (∃ fault, ∀ s, scope s → take s item = .error fault) ∨
    ∃ e, attributeKey? item = some (key e) ∧ ∀ s, scope s → take s item = .ok (change e s)
  inScope : ∀ e s, scope s → scope (change e s)
  commute : ∀ e e' s, key e ≠ key e' → change e (change e' s) = change e' (change e s)

namespace Handling

variable {σ E : Type} (H : Handling σ E)

/-- Take attributes one after the other, up to the first that is refused. -/
def takeAll (s : σ) (items : List Text) : Except AttributeFault σ := items.foldlM H.take s

/-- Whether an attribute is taken in the scope of a handling. -/
def Accepts (item : Text) : Prop := ∃ e, ∀ s, H.scope s → H.take s item = .ok (H.change e s)

variable {H} {items items' : List Text} {s s' : σ}

theorem takeAll_cons (item : Text) : H.takeAll s (item :: items) = H.take s item >>= (H.takeAll · items) :=
  List.foldlM_cons

/-- What is taken somewhere in the scope is taken everywhere in it, with the change that has its key. -/
theorem exists_change {item : Text} (hs : H.scope s) (h : H.take s item = .ok s') :
    ∃ e, attributeKey? item = some (H.key e) ∧ s' = H.change e s ∧
      ∀ s, H.scope s → H.take s item = .ok (H.change e s) := by
  rcases H.handled item with ⟨fault, hfault⟩ | ⟨e, hkey, hchange⟩
  · rw [hfault s hs] at h
    cases h
  · rw [hchange s hs] at h
    cases h
    exact ⟨e, hkey, rfl, hchange⟩

/-- **A list succeeds exactly when each of its attributes is accepted.** -/
theorem succeeds_iff (hs : H.scope s) : (∃ s', H.takeAll s items = .ok s') ↔ ∀ item ∈ items, H.Accepts item := by
  induction items generalizing s with
  | nil =>
    simp only [List.not_mem_nil, false_implies, implies_true, iff_true]
    exact ⟨s, rfl⟩
  | cons item items ih =>
    rw [takeAll_cons, List.forall_mem_cons]
    constructor
    · rintro ⟨s', h⟩
      obtain ⟨middle, hfirst, hrest⟩ := bind_ok h
      obtain ⟨e, -, rfl, hchange⟩ := exists_change hs hfirst
      exact ⟨⟨e, hchange⟩, (ih (H.inScope e s hs)).mp ⟨s', hrest⟩⟩
    · rintro ⟨⟨e, hchange⟩, hrest⟩
      rw [hchange s hs]
      exact (ih (H.inScope e s hs)).mpr hrest

/-- **Another order succeeds as well.** -/
theorem succeeds_of_perm (hperm : items.Perm items') (hs : H.scope s) :
    (∃ s', H.takeAll s items = .ok s') ↔ ∃ s', H.takeAll s items' = .ok s' := by
  rw [succeeds_iff hs, succeeds_iff hs]
  exact forall_congr' fun item => by rw [hperm.mem_iff]

/-- **Another order leads to the same result**, if no key comes twice. -/
theorem takeAll_of_perm (hperm : items.Perm items') (hnodup : (items.map attributeKey?).Nodup) (hs : H.scope s)
    (h : H.takeAll s items = .ok s') : H.takeAll s items' = .ok s' := by
  -- a permutation is made of swaps, and the two attributes of a swap have different keys
  induction hperm generalizing s with
  | nil => exact h
  | @cons item items items' _ ih =>
    rw [takeAll_cons] at h ⊢
    obtain ⟨middle, hfirst, hrest⟩ := bind_ok h
    obtain ⟨e, -, rfl, -⟩ := exists_change hs hfirst
    rw [hfirst]
    exact ih (List.nodup_cons.mp hnodup).2 (H.inScope e s hs) hrest
  | swap second first items =>
    rw [takeAll_cons] at h
    obtain ⟨middle, hfirst, h⟩ := bind_ok h
    rw [takeAll_cons] at h
    obtain ⟨last, hsecond, hrest⟩ := bind_ok h
    obtain ⟨e, hkey, rfl, hchange⟩ := exists_change hs hfirst
    obtain ⟨e', hkey', rfl, hchange'⟩ := exists_change (H.inScope e s hs) hsecond
    have hne : H.key e' ≠ H.key e := by
      intro heq
      simp [hkey, hkey', heq] at hnodup
    rw [takeAll_cons, hchange' s hs]
    show H.takeAll (H.change e' s) _ = _
    rw [takeAll_cons, hchange _ (H.inScope e' s hs), H.commute e e' s (Ne.symm hne)]
    exact hrest
  | trans hfirst _ ih ih' => exact ih' ((hfirst.map attributeKey?).nodup_iff.mp hnodup) hs (ih hnodup hs h)

/-- Attributes are taken alike on both sides of a map that every change commutes with. -/
theorem takeAll_map (f : σ → σ) (hscope : ∀ s, H.scope s → H.scope (f s))
    (hf : ∀ e s, H.change e (f s) = f (H.change e s)) (hs : H.scope s) (h : H.takeAll s items = .ok s') :
    H.takeAll (f s) items = .ok (f s') := by
  induction items generalizing s with
  | nil =>
    cases h
    rfl
  | cons item items ih =>
    rw [takeAll_cons] at h ⊢
    obtain ⟨middle, hfirst, hrest⟩ := bind_ok h
    obtain ⟨e, -, rfl, hchange⟩ := exists_change hs hfirst
    rw [hchange _ (hscope s hs), hf]
    exact ih (H.inScope e s hs) hrest

end Handling

theorem attributeKey?_eq {item key value : Text} (h : keyValue item = .ok (key, value)) :
    attributeKey? item = some (canonicalKey key) := by
  unfold keyValue at h
  unfold attributeKey?
  split at h
  · next hpair =>
    cases h
    rw [hpair]
    rfl
  · cases h

/-- An attribute without an equals sign is refused, and any other one does what its key and its value say. -/
theorem handled_of_key {σ E : Type} {scope : σ → Prop} {keyOf : E → Text} {change : E → σ → σ}
    {take : σ → Text → Text → Except AttributeFault σ}
    (h : ∀ key value, Handled scope keyOf change key (take · key value)) (item : Text) :
    (∃ fault, ∀ s, scope s → (keyValue item >>= fun (key, value) => take s key value) = .error fault) ∨
    ∃ e, attributeKey? item = some (keyOf e) ∧
      ∀ s, scope s → (keyValue item >>= fun (key, value) => take s key value) = .ok (change e s) := by
  cases hpair : keyValue item with
  | error fault => exact .inl ⟨fault, fun _ _ => rfl⟩
  | ok pair =>
    obtain ⟨key, value⟩ := pair
    cases h key value with
    | refused fault hfault => exact .inl ⟨fault, hfault⟩
    | changed e hkey hchange => exact .inr ⟨e, by rw [attributeKey?_eq hpair, hkey], hchange⟩

/-! ## §2 Types -/

/-- What an attribute does to a type. -/
def TypeAttribute.change : TypeAttribute → Declaration → Declaration
  | text key value, d => key.set d value
  | builtIn flag, d => { d with builtIn := flag }
  | scriptSupport flag, d => { d with scriptSupport := flag }

theorem TypeAttribute.change_comm (a b : TypeAttribute) (d : Declaration) (h : a.key ≠ b.key) :
    a.change (b.change d) = b.change (a.change d) := by
  cases a with
  | text key value =>
    cases b with
    | text key' value' =>
      -- two texts with different keys
      cases key <;> cases key' <;> first | rfl | exact absurd rfl h
    | builtIn flag => cases key <;> rfl
    | scriptSupport flag => cases key <;> rfl
  | builtIn flag =>
    cases b with
    | text key value => cases key <;> rfl
    | builtIn flag' => exact absurd rfl h
    | scriptSupport flag' => rfl
  | scriptSupport flag =>
    cases b with
    | text key value => cases key <;> rfl
    | builtIn flag' => rfl
    | scriptSupport flag' => exact absurd rfl h

theorem TypeAttribute.kind_change (a : TypeAttribute) (d : Declaration) : (a.change d).kind = d.kind := by
  cases a with
  | text key value => cases key <;> rfl
  | builtIn flag => rfl
  | scriptSupport flag => rfl

/-- **What a key says about a type** is the same for all types of a kind. -/
theorem Declaration.withKey_handled (kind : Kind) (key value : Text) :
    Handled (fun d : Declaration => d.kind = kind) TypeAttribute.key TypeAttribute.change key
      (Declaration.withKey · key value) := by
  have htext : ∀ k : TypeKey, key = k.name →
      Handled (fun d : Declaration => d.kind = kind) TypeAttribute.key TypeAttribute.change key
        fun d => .ok (k.set d value) := by
    rintro k rfl
    exact .changed (.text k value) (by cases k <;> rfl) fun _ _ => rfl
  unfold Declaration.withKey
  refine .ite (htext .copy) fun _ => .ite (htext .compare) fun _ => .ite (htext .serialize) fun _ =>
    .ite (htext .deserialize) fun _ => .ite (htext .toText) fun _ => .ite (htext .instantiate) fun _ =>
    .ite (htext .loadDerive) fun _ => .ite (htext .architype) fun _ => .ite (htext .renderConstructor) fun _ =>
    .ite (htext .renderDestructor) fun _ => .ite (fun hkey => .bind _ fun flag => ?_) fun _ =>
    .ite (fun hkey => .bind _ fun flag => ?_) fun _ => .refused _ fun _ _ => rfl
  · -- the only key that looks at the type, and it looks at nothing but the kind
    by_cases hexternal : kind = .external
    · exact .changed (.builtIn flag) (by rw [hkey]; rfl) fun d hd => if_pos (hd.trans hexternal)
    · exact .refused _ fun d hd => if_neg fun hkind => hexternal (hd.symm.trans hkind)
  · exact .changed (.scriptSupport flag) (by rw [hkey]; rfl) fun _ _ => rfl

/-- The attributes of types of a kind. -/
def typeHandling (kind : Kind) : Handling Declaration TypeAttribute where
  take := Declaration.withAttribute
  scope d := d.kind = kind
  key := TypeAttribute.key
  change := TypeAttribute.change
  handled := handled_of_key (Declaration.withKey_handled kind)
  inScope a d hd := (a.kind_change d).trans hd
  commute := TypeAttribute.change_comm

/-! ## §3 Properties -/

section Uniform

variable {σ E : Type} (change : E → σ → σ) {take : σ → Text → Except AttributeFault σ}

/-- Items that are refused everywhere or make the same change everywhere make lists that do, if two changes make one. -/
theorem foldlM_uniform (none : E) (both : E → E → E) (hnone : ∀ s, change none s = s)
    (hboth : ∀ e e' s, change e' (change e s) = change (both e e') s)
    (htake : ∀ item, (∃ fault, ∀ s, take s item = .error fault) ∨ ∃ e, ∀ s, take s item = .ok (change e s))
    (items : List Text) :
    (∃ fault, ∀ s, items.foldlM take s = .error fault) ∨ ∃ e, ∀ s, items.foldlM take s = .ok (change e s) := by
  induction items with
  | nil => exact .inr ⟨none, fun s => by rw [hnone]; rfl⟩
  | cons item items ih =>
    simp only [List.foldlM_cons]
    rcases htake item with ⟨fault, hfault⟩ | ⟨e, he⟩
    · exact .inl ⟨fault, fun s => by rw [hfault]; rfl⟩
    · simp only [he]
      rcases ih with ⟨fault, hfault⟩ | ⟨e', he'⟩
      · exact .inl ⟨fault, fun s => hfault _⟩
      · exact .inr ⟨both e e', fun s => (he' _).trans (by rw [hboth])⟩

end Uniform

/-- What an attribute does to a property. -/
inductive PropertyChange where
  | text (key : PropertyKey) (value : Text)
  | flag (key : PropertyFlag) (value : Bool)
  | access (mode : Access)
  | invalidates (render transform : Bool)
  | check (notSame : Bool)
  | hint (hints : Text)

namespace PropertyChange

def key : PropertyChange → Text
  | text key _ => key.name
  | flag key _ => key.name
  | access _ => "access"
  | invalidates _ _ => "invalidates"
  | check _ => "check"
  | hint _ => "hint"

/-- Make a change. What is invalidated and what is checked is never taken back. -/
def change : PropertyChange → Property → Property
  | text key value, p => key.set p value
  | flag key value, p => key.set p value
  | access mode, p => { p with access := mode }
  | invalidates render transform, p =>
    { p with
      invalidatesRender := p.invalidatesRender || render
      invalidatesTransform := p.invalidatesTransform || transform }
  | check notSame, p => { p with checkNotSame := p.checkNotSame || notSame }
  | hint hints, p => { p with hint := hints }

/-- A text is set beside everything else. -/
theorem change_text_comm (key : PropertyKey) (value : Text) (b : PropertyChange) (p : Property)
    (h : (text key value).key ≠ b.key) : key.set (b.change p) value = b.change (key.set p value) := by
  cases b with
  | text key' value' => cases key <;> cases key' <;> first | rfl | exact absurd rfl h
  | flag key' value' => cases key <;> cases key' <;> rfl
  | access mode => cases key <;> rfl
  | invalidates render transform => cases key <;> rfl
  | check notSame => cases key <;> rfl
  | hint hints => cases key <;> rfl

/-- A flag is set beside everything else. -/
theorem change_flag_comm (key : PropertyFlag) (value : Bool) (b : PropertyChange) (p : Property)
    (h : (flag key value).key ≠ b.key) : key.set (b.change p) value = b.change (key.set p value) := by
  cases b with
  | text key' value' => cases key <;> cases key' <;> rfl
  | flag key' value' => cases key <;> cases key' <;> first | rfl | exact absurd rfl h
  | access mode => cases key <;> rfl
  | invalidates render transform => cases key <;> rfl
  | check notSame => cases key <;> rfl
  | hint hints => cases key <;> rfl

theorem change_comm (a b : PropertyChange) (p : Property) (h : a.key ≠ b.key) :
    a.change (b.change p) = b.change (a.change p) := by
  -- texts and flags commute with all that has another key, and the other kinds write fields of their own
  cases a with
  | text key value => exact change_text_comm key value b p h
  | flag key value => exact change_flag_comm key value b p h
  | access mode =>
    cases b with
    | text key value => exact (change_text_comm key value (.access mode) p (Ne.symm h)).symm
    | flag key value => exact (change_flag_comm key value (.access mode) p (Ne.symm h)).symm
    | access mode' => exact absurd rfl h
    | _ => rfl
  | invalidates render transform =>
    cases b with
    | text key value => exact (change_text_comm key value (.invalidates render transform) p (Ne.symm h)).symm
    | flag key value => exact (change_flag_comm key value (.invalidates render transform) p (Ne.symm h)).symm
    | invalidates render' transform' => exact absurd rfl h
    | _ => rfl
  | check notSame =>
    cases b with
    | text key value => exact (change_text_comm key value (.check notSame) p (Ne.symm h)).symm
    | flag key value => exact (change_flag_comm key value (.check notSame) p (Ne.symm h)).symm
    | check notSame' => exact absurd rfl h
    | _ => rfl
  | hint hints =>
    cases b with
    | text key value => exact (change_text_comm key value (.hint hints) p (Ne.symm h)).symm
    | flag key value => exact (change_flag_comm key value (.hint hints) p (Ne.symm h)).symm
    | hint hints' => exact absurd rfl h
    | _ => rfl

end PropertyChange

namespace Property

/-- A list of targets sets flags, the same ones in every property, or is refused for the same target. -/
theorem invalidating_uniform (targets : List Text) :
    (∃ fault, ∀ p, targets.foldlM invalidating p = .error fault) ∨
    ∃ flags : Bool × Bool, ∀ p, targets.foldlM invalidating p =
      .ok ((PropertyChange.invalidates flags.1 flags.2).change p) := by
  refine foldlM_uniform (fun flags : Bool × Bool => (PropertyChange.invalidates flags.1 flags.2).change)
    (false, false) (fun e e' => (e.1 || e'.1, e.2 || e'.2)) (fun p => ?_) (fun e e' p => ?_) (fun target => ?_) targets
  · simp [PropertyChange.change]
  · simp [PropertyChange.change, Bool.or_assoc]
  · unfold invalidating
    by_cases hrender : target = "render"
    · exact .inr ⟨(true, false), fun p => by simp [hrender, PropertyChange.change]⟩
    · by_cases htransform : target = "transform"
      · exact .inr ⟨(false, true), fun p => by rw [if_neg hrender, if_pos htransform]; simp [PropertyChange.change]⟩
      · exact .inl ⟨.badInvalidates target, fun p => by rw [if_neg hrender, if_neg htransform]⟩

theorem checking_uniform (checks : List Text) :
    (∃ fault, ∀ p, checks.foldlM checking p = .error fault) ∨
    ∃ flag : Bool, ∀ p, checks.foldlM checking p = .ok ((PropertyChange.check flag).change p) := by
  refine foldlM_uniform (fun flag : Bool => (PropertyChange.check flag).change)
    false (· || ·) (fun p => ?_) (fun e e' p => ?_) (fun check => ?_) checks
  · simp [PropertyChange.change]
  · simp [PropertyChange.change, Bool.or_assoc]
  · unfold checking
    by_cases hcheck : check = "not_same"
    · exact .inr ⟨true, fun p => by simp [hcheck, PropertyChange.change]⟩
    · exact .inl ⟨.badCheck check, fun p => if_neg hcheck⟩

/-- **What a key says about a property** is the same for all properties. -/
theorem withKey_handled (key value : Text) :
    Handled (fun _ : Property => True) PropertyChange.key PropertyChange.change key (Property.withKey · key value) := by
  have htext : ∀ k : PropertyKey, key = k.name →
      Handled (fun _ : Property => True) PropertyChange.key PropertyChange.change key fun p => .ok (k.set p value) := by
    rintro k rfl
    exact .changed (.text k value) (by cases k <;> rfl) fun _ _ => rfl
  have hflag : ∀ (k : PropertyFlag) (read : Except AttributeFault Bool), key = k.name →
      Handled (fun _ : Property => True) PropertyChange.key PropertyChange.change key
        fun p => read >>= fun flag => .ok (k.set p flag) := by
    rintro k read rfl
    exact .bind read fun flag => .changed (.flag k flag) (by cases k <;> rfl) fun _ _ => rfl
  -- all keys but four set a text or a flag
  unfold Property.withKey
  refine .ite (htext .serialize) fun _ => .ite (htext .deserialize) fun _ => .ite (htext .loadDerive) fun _ =>
    .ite (htext .compare) fun _ => .ite (htext .copy) fun _ => .ite (htext .instantiate) fun _ =>
    .ite (htext .gpuData) fun _ => .ite (htext .category) fun _ => .ite (fun hkey => ?_) fun _ =>
    .ite (hflag .serializable _) fun _ => .ite (hflag .default _) fun _ => .ite (hflag .ref _) fun _ =>
    .ite (hflag .copyable _) fun _ => .ite (hflag .updatable _) fun _ => .ite (fun hkey => ?_) fun _ =>
    .ite (fun hkey => ?_) fun _ => .ite (fun hkey => ?_) fun _ => .refused _ fun _ _ => rfl
  · cases hmode : Access.ofSpelling? value with
    | none => exact .refused (.badAccess value) fun _ _ => rfl
    | some mode => exact .changed (.access mode) (by rw [hkey]; rfl) fun _ _ => rfl
  · rcases invalidating_uniform (valueList value) with ⟨fault, hfault⟩ | ⟨flags, hflags⟩
    · exact .refused fault fun p _ => hfault p
    · exact .changed (.invalidates flags.1 flags.2) (by rw [hkey]; rfl) fun p _ => hflags p
  · rcases checking_uniform (valueList value) with ⟨fault, hfault⟩ | ⟨flag, hflag⟩
    · exact .refused fault fun p _ => hfault p
    · exact .changed (.check flag) (by rw [hkey]; rfl) fun p _ => hflag p
  · exact .changed (.hint (quotedHints value)) (by rw [hkey]; rfl) fun _ _ => rfl

end Property

/-- The attributes of properties. -/
def propertyHandling : Handling Property PropertyChange where
  take := Property.withAttribute
  scope _ := True
  key := PropertyChange.key
  change := PropertyChange.change
  handled := handled_of_key Property.withKey_handled
  inScope _ _ _ := trivial
  commute := PropertyChange.change_comm

/-! ## §4 Packages -/

/-- The flags of a package. -/
inductive PackageFlag where
  | modelTypes
  | modelProperties
  | renderTypes
  | renderResources

namespace PackageFlag

def name : PackageFlag → Text
  | modelTypes => "model.has_types_overrides"
  | modelProperties => "model.has_properties_overrides"
  | renderTypes => "render.has_overrides"
  | renderResources => "render.has_resources"

def set (m : Module) (value : Bool) : PackageFlag → Module
  | modelTypes => { m with modelTypesOverrides := value }
  | modelProperties => { m with modelPropertiesOverrides := value }
  | renderTypes => { m with renderTypesOverrides := value }
  | renderResources => { m with renderCustomResources := value }

end PackageFlag

/-- What an attribute does to a package. -/
inductive PackageChange where
  | flag (key : PackageFlag) (value : Bool)
  | dependencies (modules : List Text)

namespace PackageChange

def key : PackageChange → Text
  | flag key _ => key.name
  | dependencies _ => "dependencies"

def change : PackageChange → Module → Module
  | flag key value, m => key.set m value
  | dependencies modules, m => { m with dependencies := modules }

theorem change_comm (a b : PackageChange) (m : Module) (h : a.key ≠ b.key) :
    a.change (b.change m) = b.change (a.change m) := by
  cases a with
  | flag key value =>
    cases b with
    | flag key' value' => cases key <;> cases key' <;> first | rfl | exact absurd rfl h
    | dependencies modules => cases key <;> rfl
  | dependencies modules =>
    cases b with
    | flag key value => cases key <;> rfl
    | dependencies modules' => exact absurd rfl h

end PackageChange

namespace Module

/-- A module without the fault that came with it, or the fault alone. -/
def orFault : Module × Option AttributeFault → Except AttributeFault Module
  | (m, none) => .ok m
  | (_, some fault) => .error fault

/-- Take an attribute of a package, or fail. -/
def tryAttribute (m : Module) (item : Text) : Except AttributeFault Module := orFault (m.withAttribute item)

theorem tryAttribute_eq (m : Module) (item : Text) :
    m.tryAttribute item = (keyValue item >>= fun (key, value) => orFault (m.withKey key value)) := by
  unfold tryAttribute withAttribute
  cases keyValue item with
  | error fault => rfl
  | ok pair => rfl

theorem orFault_withFlag (set : Bool → Module) (key value : Text) :
    orFault (withFlag set key value) = (trueFalse key value >>= fun flag => .ok (set flag)) := by
  unfold withFlag
  cases trueFalse key value with
  | error fault => rfl
  | ok flag => rfl

/-- **What a key says about a package** is the same for all packages. -/
theorem withKey_handled (key value : Text) :
    Handled (fun _ : Module => True) PackageChange.key PackageChange.change key
      fun m => orFault (m.withKey key value) := by
  have hflag : ∀ k : PackageFlag, key = k.name →
      Handled (fun _ : Module => True) PackageChange.key PackageChange.change key
        fun m => trueFalse key value >>= fun flag => .ok (k.set m flag) := by
    rintro k rfl
    exact .bind _ fun flag => .changed (.flag k flag) (by cases k <;> rfl) fun _ _ => rfl
  unfold withKey
  simp only [apply_ite orFault, orFault_withFlag]
  refine .ite (hflag .modelTypes) fun _ => .ite (hflag .modelProperties) fun _ => .ite (hflag .renderTypes) fun _ =>
    .ite (hflag .renderResources) fun _ => .ite (fun hkey => ?_) fun _ => .refused _ fun _ _ => rfl
  -- both spellings of the key write to the same part
  have hcanonical : canonicalKey key = "dependencies" := by
    rcases hkey with rfl | rfl
    · rfl
    · rfl
  exact .changed (.dependencies (dependencyList value)) hcanonical fun _ _ => rfl

/-- The attributes of a package are taken up to the first that fails. -/
theorem withAttributes_eq_none_iff (m m' : Module) (items : List Text) :
    m.withAttributes items = (m', none) ↔ items.foldlM tryAttribute m = .ok m' := by
  induction items generalizing m with
  | nil => simp [withAttributes, pure, Except.pure]
  | cons item items ih =>
    rw [withAttributes, List.foldlM_cons, tryAttribute]
    rcases m.withAttribute item with ⟨middle, _ | fault⟩
    · exact ih middle
    · simp [orFault, bind, Except.bind]

end Module

/-- The attributes of packages. -/
def packageHandling : Handling Module PackageChange where
  take := Module.tryAttribute
  scope _ := True
  key := PackageChange.key
  change := PackageChange.change
  handled item := by
    simp only [Module.tryAttribute_eq]
    exact handled_of_key Module.withKey_handled item
  inScope _ _ _ := trivial
  commute := PackageChange.change_comm

/-! ## §5 Any order -/

/-- The order of attributes does not matter, for a way to take them that relates what is there before to what is there
after. -/
structure AnyOrder {σ : Type} (run : σ → List Text → σ → Prop) (items items' : List Text) : Prop where
  succeeds : ∀ s, (∃ s', run s items s') ↔ ∃ s', run s items' s'
  result : (items.map attributeKey?).Nodup → ∀ s s', run s items s' → run s items' s'

theorem Handling.anyOrder {σ E : Type} (H : σ → Handling σ E) {run : σ → List Text → σ → Prop}
    (hrun : ∀ s items s', run s items s' ↔ (H s).takeAll s items = .ok s') (hscope : ∀ s, (H s).scope s)
    {items items' : List Text} (hperm : items.Perm items') : AnyOrder run items items' where
  succeeds s := by
    simp only [hrun]
    exact succeeds_of_perm hperm (hscope s)
  result hnodup s s' h := by
    simp only [hrun] at h ⊢
    exact takeAll_of_perm hperm hnodup (hscope s) h

/-- A property that was found on another line. -/
def Property.onLine (p : Property) (line : Nat) : Property := { p with line }

theorem PropertyChange.change_onLine (a : PropertyChange) (p : Property) (line : Nat) :
    a.change (p.onLine line) = (a.change p).onLine line := by
  cases a with
  | text key value => cases key <;> rfl
  | flag key value => cases key <;> rfl
  | _ => rfl

/-- A search that starts with another number finds the same line. -/
theorem findLine?_start (test : Text → Bool) (start : Nat) (lines : List Text) :
    findLine? test start lines = (findLine? test 0 lines).map fun (distance, line) => (start + distance, line) := by
  induction lines generalizing start with
  | nil => rfl
  | cons line lines ih =>
    rw [findLine?, findLine?, ih, ih (0 + 1)]
    split
    · rfl
    · simp [Option.map_map, Function.comp_def, Nat.add_assoc]

section ReadProperty

variable {items items' : List Text} {lines lines' : List Text} {listEnd listEnd' : Nat}

/-- What is read of a property whose attributes are known, with distances from the end of the attribute list. -/
theorem readProperty_behind (hlist : attributesAt .property lines = .ok (listEnd, items)) (owner : Text) (number : Nat) :
    readProperty owner number lines =
      match findLine? (!isIdleLine ·) 0 (lines.drop (listEnd + 1)) with
      | none => .error (0, .noDeclaration .property)
      | some (distance, line) =>
        match FieldLine.parse? line with
        | none => .error (listEnd + 1 + distance, .malformedField line.trim)
        | some field =>
          let property : Property := {
            type := field.type
            name := field.name
            fragment := cutName field.name
            owner
            line := number + (listEnd + 1 + distance) }
          atAttributes (property.withAttributes items) >>= fun property =>
            if property.hasDefault ∧ ¬ field.initialized then .error (0, .missingDefault property.name)
            else .ok (listEnd + 1 + distance, property) := by
  unfold readProperty declarationAt
  rw [hlist]
  simp only [bind, Except.bind]
  rw [findLine?_start]
  cases findLine? (!isIdleLine ·) 0 (lines.drop (listEnd + 1)) with
  | none => rfl
  | some found => rfl

/-- **What is read of a property does not depend on the order of its attributes**, nor on the lines they stand on: the
property is refused for the want of a default value in both orders or in none, and it is the same property. -/
theorem readProperty_of_perm (hperm : items.Perm items') (hnodup : (items.map attributeKey?).Nodup)
    (haccepted : ∃ p p' : Property, p.withAttributes items = .ok p')
    (hlist : attributesAt .property lines = .ok (listEnd, items))
    (hlist' : attributesAt .property lines' = .ok (listEnd', items'))
    (hrest : lines.drop (listEnd + 1) = lines'.drop (listEnd' + 1)) (owner : Text) (number number' : Nat) :
    (∀ name, readProperty owner number lines = .error (0, .missingDefault name) ↔
      readProperty owner number' lines' = .error (0, .missingDefault name)) ∧
    ∀ index p, readProperty owner number lines = .ok (index, p) → ∃ distance, index = listEnd + distance ∧
      readProperty owner number' lines' = .ok (listEnd' + distance, p.onLine (number' + (listEnd' + distance))) := by
  obtain ⟨q, q', hq⟩ := haccepted
  have hall := (propertyHandling.succeeds_iff (s := q) trivial).mp ⟨q', hq⟩
  -- wherever the property stands, both orders make the same of it
  have hmetadata : ∀ (p : Property) (line : Nat), ∃ p', p.withAttributes items = .ok p' ∧
      (p.onLine line).withAttributes items' = .ok (p'.onLine line) := by
    intro p line
    obtain ⟨p', hp⟩ := (propertyHandling.succeeds_iff (s := p) trivial).mpr hall
    refine ⟨p', hp, propertyHandling.takeAll_of_perm hperm hnodup trivial ?_⟩
    exact propertyHandling.takeAll_map (·.onLine line) (fun _ _ => trivial) (fun a p => a.change_onLine p line) trivial hp
  rw [readProperty_behind hlist, readProperty_behind hlist', ← hrest]
  cases findLine? (!isIdleLine ·) 0 (lines.drop (listEnd + 1)) with
  | none => simp
  | some found =>
    obtain ⟨distance, line⟩ := found
    dsimp only
    cases FieldLine.parse? line with
    | none => simp
    | some field =>
      dsimp only
      obtain ⟨p, hp, hp'⟩ := hmetadata {
        type := field.type
        name := field.name
        fragment := cutName field.name
        owner
        line := number + (listEnd + 1 + distance) } (number' + (listEnd' + 1 + distance))
      simp only [Property.onLine] at hp'
      simp only [hp, hp', atAttributes, Except.mapError, bind, Except.bind]
      split
      · simp
      · refine ⟨by simp, ?_⟩
        rintro index _ ⟨rfl, rfl⟩
        exact ⟨1 + distance, by omega, by simp [Property.onLine, Nat.add_assoc]⟩

end ReadProperty

/-- **Attribute order does not matter.** A list of attributes and every permutation of it succeed alike, from every
type, property or package. Where no key comes twice and the list succeeds, they lead to the same type, property or
package, and what is read of a property afterwards, the check of its default value included, is the same. -/
theorem attribute_order_irrelevant {items items' : List Text} (hperm : items.Perm items') :
    AnyOrder (fun (d : Declaration) items d' => d.withAttributes items = .ok d') items items' ∧
    AnyOrder (fun (p : Property) items p' => p.withAttributes items = .ok p') items items' ∧
    AnyOrder (fun (m : Module) items m' => m.withAttributes items = (m', none)) items items' ∧
    ((items.map attributeKey?).Nodup → (∃ p p' : Property, p.withAttributes items = .ok p') →
      ∀ (lines lines' : List Text) (listEnd listEnd' : Nat),
        attributesAt .property lines = .ok (listEnd, items) →
        attributesAt .property lines' = .ok (listEnd', items') →
        lines.drop (listEnd + 1) = lines'.drop (listEnd' + 1) →
        ∀ (owner : Text) (number number' : Nat),
          (∀ name, readProperty owner number lines = .error (0, .missingDefault name) ↔
            readProperty owner number' lines' = .error (0, .missingDefault name)) ∧
          ∀ index p, readProperty owner number lines = .ok (index, p) → ∃ distance, index = listEnd + distance ∧
            readProperty owner number' lines' =
              .ok (listEnd' + distance, p.onLine (number' + (listEnd' + distance)))) := by
  refine ⟨Handling.anyOrder (fun d => typeHandling d.kind) (fun _ _ _ => Iff.rfl) (fun _ => rfl) hperm,
    Handling.anyOrder (fun _ => propertyHandling) (fun _ _ _ => Iff.rfl) (fun _ => trivial) hperm,
    Handling.anyOrder (fun _ => packageHandling) (fun m items m' => m.withAttributes_eq_none_iff m' items)
      (fun _ => trivial) hperm, ?_⟩
  intro hnodup haccepted lines lines' listEnd listEnd' hlist hlist' hrest
  exact readProperty_of_perm hperm hnodup haccepted hlist hlist' hrest

/-- A property without initializer, which asks for a default value before or after it says who has access. -/
theorem default_refused_in_both_orders :
    let items : List Text := ["default=true", "access=all"]
    let items' : List Text := ["access=all", "default=true"]
    let lines : List Text := ["AGEA_ar_property(default=true, access=all)", "int m_size;"]
    let lines' : List Text := ["AGEA_ar_property(access=all,", "default=true)", "int m_size;"]
    let p : Property := { type := "int", name := "m_size", fragment := "size", owner := "A", line := 1 }
    (items.Perm items' ∧ (items.map attributeKey?).Nodup ∧ lines.drop 1 = lines'.drop 2 ∧
      attributesAt .property lines = .ok (0, items) ∧ attributesAt .property lines' = .ok (1, items')) ∧
    (p.withAttributes items = .ok { p with hasDefault := true, access := .all } ∧
      p.withAttributes items' = .ok { p with hasDefault := true, access := .all }) ∧
    readProperty "A" 1 lines = .error (0, .missingDefault "m_size") ∧
    readProperty "A" 1 lines' = .error (0, .missingDefault "m_size") := by
  intro items items' lines lines' p
  have hperm : items.Perm items' := .swap _ _ []
  have hnodup : (items.map attributeKey?).Nodup := by decide +kernel
  have hlist : attributesAt .property lines = .ok (0, items) := by decide +kernel
  have hlist' : attributesAt .property lines' = .ok (1, items') := by decide +kernel
  have htaken : p.withAttributes items = .ok { p with hasDefault := true, access := .all } := by decide +kernel
  have hrefused : readProperty "A" 1 lines = .error (0, .missingDefault "m_size") := by decide +kernel
  obtain ⟨-, hproperty, -, hread⟩ := attribute_order_irrelevant hperm
  refine ⟨⟨hperm, hnodup, rfl, hlist, hlist'⟩, ⟨htaken, hproperty.result hnodup _ _ htaken⟩, hrefused, ?_⟩
  exact ((hread hnodup ⟨p, _, htaken⟩ lines lines' 0 1 hlist hlist' rfl "A" 1 1).1 "m_size").mp hrefused

end HeaderReflection
