import HeaderReflection.Artifact.Source
import HeaderReflection.Declaration.Basic

/-!
# Accessors

The getters and setters of a property: how they are declared in the class header, defined in the model source and
bound for scripts.

## Main definitions

- `Accessor`: what a declaration and a definition have in common.
- `Property.declaredAccessors`: the accessors in the class header.
- `AccessorDefinition`, `Property.definedAccessors`: the accessors in the model source.
- `ScriptBinding`, `Property.scriptBindings`: the accessors that scripts may call.
-/

namespace HeaderReflection

/-- What an accessor does. -/
inductive AccessorRole where
  | getter
  | setter
  deriving DecidableEq, Repr, Inhabited

/-- An accessor of a property: its role, the value type and the fragment its name is made of. -/
structure Accessor where
  role : AccessorRole
  type : Text
  fragment : Text
  deriving DecidableEq, Repr, Inhabited

namespace Accessor

/-- The name of an accessor. -/
def name (a : Accessor) : Text :=
  match a.role with
  | .getter => "get_" ++ a.fragment
  | .setter => "set_" ++ a.fragment

/-- The lines that declare an accessor in a macro. -/
def declarationLines (a : Accessor) : List Text :=
  match a.role with
  | .getter => ["public: \\", "    " ++ a.type ++ " " ++ a.name ++ "() const; \\"]
  | .setter => ["public: \\", "    void " ++ a.name ++ "(" ++ a.type ++ " v); \\"]

end Accessor

/-- The accessors of a property that the class header declares. -/
def Property.declaredAccessors (p : Property) : List Accessor :=
  (if p.access.hasGetter then [⟨.getter, p.type, p.fragment⟩] else []) ++
  (if p.access.hasSetter then [⟨.setter, p.type, p.fragment⟩] else [])

/-- An accessor with its class and its body. -/
structure AccessorDefinition where
  owner : Text
  accessor : Accessor
  body : List Statement
  deriving DecidableEq, Repr, Inhabited

/-- The lines that define an accessor. -/
def AccessorDefinition.lines (d : AccessorDefinition) : List Text :=
  match d.accessor.role with
  | .getter => inOrder [
      ["", d.accessor.type, d.owner ++ "::" ++ d.accessor.name ++ "() const", "\x7b"],
      d.body.map fun s => "    " ++ s.render,
      ["\x7d"]]
  | .setter => inOrder [
      ["", "void", d.owner ++ "::" ++ d.accessor.name ++ "(" ++ d.accessor.type ++ " v)", "\x7b"],
      indented 4 d.body,
      ["\x7d"]]

/-- The body of a setter: it may leave an equal value alone, and tells what the new value invalidates. -/
def Property.setterBody (p : Property) : List Statement :=
  (if p.checkNotSame then
    [.plain ("if (" ++ p.name ++ " == v)"), .plain "\x7b", .plain "    return;", .plain "\x7d"]
  else []) ++
  [.plain (p.name ++ " = v;")] ++
  (if p.invalidatesTransform then [.plain "mark_transform_dirty();", .plain "update_children_matrixes();"]
  else []) ++
  (if p.invalidatesRender then [.plain "mark_render_dirty();"] else [])

/-- The accessors of a property that the model source defines. -/
def Property.definedAccessors (p : Property) : List AccessorDefinition :=
  (if p.access.hasGetter then
    [{ owner := p.owner
       accessor := { role := .getter, type := p.type, fragment := p.fragment }
       body := [.plain ("return " ++ p.name ++ ";")] }]
  else []) ++
  (if p.access.hasSetter then
    [{ owner := p.owner
       accessor := { role := .setter, type := p.type, fragment := p.fragment }
       body := p.setterBody }]
  else [])

/-- A member that a script may call. -/
inductive ScriptBinding where
  | getter (fragment : Text)
  | setter (fragment : Text)
  | function (name : Text)
  deriving DecidableEq, Repr, Inhabited

/-- The name of the member that is bound. -/
def ScriptBinding.member : ScriptBinding → Text
  | .getter fragment => "get_" ++ fragment
  | .setter fragment => "set_" ++ fragment
  | .function name => name

/-- The line that binds a member. -/
def ScriptBinding.line (b : ScriptBinding) : Text :=
  "    lua_type[\"" ++ b.member ++ "\"] = &K::" ++ b.member ++ ";"

/-- The accessors of a property that scripts may call. -/
def Property.scriptBindings (p : Property) : List ScriptBinding :=
  (if p.access.scriptGetter then [.getter p.fragment] else []) ++
  (if p.access.scriptSetter then [.setter p.fragment] else [])

end HeaderReflection
