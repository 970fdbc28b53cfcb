import HeaderReflection.Artifact.Source
import HeaderReflection.Module

/-!
# Type resolvers

A header that tells the id of each type of a module, in the order of their full names.
-/

namespace HeaderReflection

/-- The id of a type, as generated sources ask for it. -/
structure TypeResolver where
  qualified : Text
  id : Text
  deriving DecidableEq, Repr, Inhabited

/-- The lines of a resolver. -/
def TypeResolver.lines (r : TypeResolver) : List Text :=
  ["",
   "template <>",
   "struct type_resolver<" ++ r.qualified ++ ">",
   "\x7b",
   "    enum",
   "    \x7b",
   "        value = ::agea::" ++ r.id,
   "    \x7d;",
   "\x7d;"]

/-- The resolvers of a module and the headers that declare its types. -/
structure TypeResolvers where
  includes : List Text
  resolvers : List TypeResolver
  deriving DecidableEq, Repr, Inhabited

namespace TypeResolvers

/-- The resolvers of a module. -/
def ofModule (m : Module) : TypeResolvers where
  includes := m.includes
  resolvers := (sortBy (fun a b : Entry => Text.le a.fullName b.fullName) m.entries).map fun e =>
    { qualified := e.qualifiedName, id := e.id }

/-- The text of the resolvers. -/
def render (r : TypeResolvers) : Text :=
  sourceText [
    ["#pragma once",
     "",
     "#include <core/reflection/types.h>",
     "",
     "#include <glue/type_ids.ar.h>",
     ""],
    r.includes.map fun path => "#include \"" ++ path ++ "\"",
    ["",
     "namespace agea::reflection",
     "\x7b"],
    r.resolvers.flatMap TypeResolver.lines,
    ["",
     "\x7d"]]

end TypeResolvers

end HeaderReflection
