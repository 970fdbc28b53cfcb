import HeaderReflection.Artifact.Accessor
import HeaderReflection.Module

/-!
# Script importer

For each class and struct a template binds its members for scripts. The template of a type with a linked parent first
calls that of the parent.
-/

namespace HeaderReflection

/-- The template of a type: its name, the parent whose template it calls, and the members it binds. -/
structure ScriptTemplate where
  name : Text
  parent : Option Text
  bindings : List ScriptBinding
  deriving DecidableEq, Repr, Inhabited

namespace ScriptTemplate

/-- The template of a type of a module. -/
def ofEntry (m : Module) (e : Entry) : ScriptTemplate where
  name := e.name
  parent := (m.parentOf? e).map (·.name)
  bindings :=
    e.reflectedProperties.flatMap Property.scriptBindings ++ e.functions.map fun f => .function f.name

/-- The line that calls the template of the parent. -/
def parentLine (parent : Text) : Text := "    " ++ scriptTemplate parent ++ "<T, K>(lua_type);"

/-- The lines of a template. -/
def lines (t : ScriptTemplate) : List Text :=
  inOrder [
    ["",
     "template <typename T, typename K>",
     "void",
     scriptTemplate t.name ++ "(T& lua_type)",
     "\x7b"],
    (t.parent.map parentLine).toList,
    t.bindings.map ScriptBinding.line,
    ["\x7d"]]

end ScriptTemplate

/-- The templates of a module, in the order of its types. -/
structure ScriptImporter where
  templates : List ScriptTemplate
  deriving DecidableEq, Repr, Inhabited

namespace ScriptImporter

/-- The script importer of a module. -/
def ofModule (m : Module) : ScriptImporter where
  templates := (m.entries.filter (·.isScripted)).map (ScriptTemplate.ofEntry m)

/-- The text of a script importer. -/
def render (s : ScriptImporter) : Text :=
  sourceText [["#pragma once"], s.templates.flatMap ScriptTemplate.lines]

end ScriptImporter

end HeaderReflection
