import HeaderReflection.Artifact.Source
import HeaderReflection.Module
import HeaderReflection.Text.Quoted

/-!
# Registration of types

What the model source does for each type when the package is built: it creates a reflection handle, fills in the
type's descriptor and describes its properties.

## Main definitions

- `reflectionHandle`: the variable of a type's reflection handle.
- `Entry.statements`: the statements that fill in a type's descriptor.
- `PropertyRegistration`, `Property.statements`: a property's descriptor.
- `Registration`: all of it for one type.
-/

namespace HeaderReflection

/-- The variable that holds the reflection handle of a type. -/
def reflectionHandle (m : Module) (name : Text) : Text := m.name ++ "_" ++ name ++ "_rt"

/-! ## §1 Descriptors -/

/-- The statements that look up the parent and store it. A parent of another module is named as the header names it. -/
def Entry.parentStatements (m : Module) (e : Entry) : List Statement :=
  if e.parentName = [] then []
  else
    let parent := match m.parentOf? e with
      | some parent => parent.qualifiedName
      | none => e.parentName
    [.plain ("int parent_type_id = ::agea::reflection::type_resolver<" ++ parent ++ ">::value;"),
     .plain "AGEA_check(parent_type_id != -1, \"Type is not defined!\");",
     .plain "auto parent_rt = ::agea::glob::glob_state().get_rm()->get_type(parent_type_id);",
     .plain "AGEA_check(parent_rt, \"Type is not defined!\");",
     .assign "rt.parent" "parent_rt"]

/-- The statements that install the handlers of a type. -/
def TypeHandlers.statements (h : TypeHandlers) : List Statement :=
  [Statement.assignSome "rt.compare" h.compare,
   Statement.assignSome "rt.copy" h.copy,
   Statement.assignSome "rt.serialize" h.serialize,
   Statement.assignSome "rt.deserialize" h.deserialize,
   Statement.assignSome "rt.to_string" h.toText,
   Statement.assignSome "rt.instantiate" h.instantiate,
   Statement.assignSome "rt.load_derive" h.loadDerive].flatten

/-- The statements that fill in the descriptor of a type. -/
def Entry.statements (m : Module) (e : Entry) : List Statement :=
  [[.assign "rt.type_id" "type_id",
    .assign "rt.type_class"
      ("::agea::reflection::reflection_type::reflection_type_class::" ++ e.kind.name),
    .assign "rt.module_id" ("AID(\"" ++ m.name ++ "\")"),
    .assign "rt.size" ("sizeof(" ++ e.qualifiedName ++ ")")],
   if e.scriptBound then [.allocate e.name e.qualifiedName] else [],
   if e.kind = .classType then
     [.assign "rt.alloc" (e.name ++ "::AR_TYPE_create_empty_gen_obj"),
      .assign "rt.cparams_alloc" (e.name ++ "::AR_TYPE_create_gen_default_cparams")]
   else [],
   Statement.assignSome "rt.arch" (e.architype.map fun architype => "core::architype::" ++ architype),
   e.parentStatements m,
   e.handlers.statements].flatten

/-- The statements that install the render hooks of a class. -/
def Declaration.renderStatements (d : Declaration) : List Statement :=
  Statement.assignSome "type_rt->render_constructor" d.renderConstructor ++
  Statement.assignSome "type_rt->render_destructor" d.renderDestructor

/-- The statements that install the handlers of a property. -/
def PropertyHandlers.statements (h : PropertyHandlers) : List Statement :=
  [Statement.assignSome "p->serialization_handler" h.serialize,
   Statement.assignSome "p->deserialization_handler" h.deserialize,
   Statement.assignSome "p->load_derive" h.loadDerive,
   Statement.assignSome "p->compare_handler" h.compare,
   Statement.assignSome "p->copy_handler" h.copy,
   Statement.assignSome "p->instantiate_handler" h.instantiate].flatten

/-- The statements that fill in the optional parts of a property's descriptor. -/
def Property.statements (p : Property) : List Statement :=
  [if p.category = [] then [] else [.assign "p->category" (Text.quoted p.category)],
   if p.hint = [] then [] else [.assign "p->hints" ("\x7b" ++ p.hint ++ "\x7d")],
   Statement.assignSome "p->gpu_data" (p.gpuData.map Text.quoted),
   if p.hasDefault then [.assign "p->has_default" "true"] else [],
   if p.serializable then [.assign "p->serializable" "true"] else [],
   if p.invalidatesRender then
     [.assign "p->render_subobject"
       ("std::is_base_of_v<::agea::root::smart_object, typename std::remove_pointer_t<" ++ p.type ++ ">>")]
   else [],
   p.handlers.statements].flatten

/-! ## §2 Registrations -/

/-- The description of a property. -/
structure PropertyRegistration where
  name : Text
  fragment : Text
  statements : List Statement
  deriving DecidableEq, Repr, Inhabited

/-- The description of a declared property. -/
def PropertyRegistration.ofProperty (p : Property) : PropertyRegistration where
  name := p.name
  fragment := p.fragment
  statements := p.statements

/-- The registration of a type. -/
structure Registration where
  name : Text
  qualified : Text
  handle : Text
  statements : List Statement
  properties : List PropertyRegistration
  deriving DecidableEq, Repr, Inhabited

namespace Registration

/-- The registration of a type of a module. -/
def ofEntry (m : Module) (e : Entry) : Registration where
  name := e.name
  qualified := e.qualifiedName
  handle := reflectionHandle m e.name
  statements := e.statements m
  properties := e.reflectedProperties.map PropertyRegistration.ofProperty

/-- The lines that describe a property. -/
def propertyLines (r : Registration) (p : PropertyRegistration) : List Text :=
  inOrder [
    ["",
     "        \x7b",
     "            using type = " ++ r.qualified ++ ";",
     "",
     "            auto property_td = ::agea::reflection::agea_type_resolve<decltype(type::" ++ p.name ++ ")>();",
     "            auto prop_rtype  = ::agea::glob::glob_state().get_rm()->get_type(property_td.type_id);",
     "",
     "            auto prop = std::make_shared<::agea::reflection::property>();",
     "            auto p    = prop.get();",
     "",
     "            " ++ r.handle ++ "->m_properties.emplace_back(std::move(prop));",
     "",
     "            p->name   = \"" ++ p.fragment ++ "\";",
     "            p->offset = offsetof(type, " ++ p.name ++ ");",
     "            p->rtype  = prop_rtype;"],
    indented 12 p.statements,
    ["        \x7d"]]

/-- The lines that register a type. -/
def lines (r : Registration) : List Text :=
  inOrder [
    ["",
     "    \x7b",
     "        const int type_id = ::agea::reflection::type_resolver<" ++ r.qualified ++ ">::value;",
     "        AGEA_check(type_id != -1, \"Type is not defined!\");",
     "        " ++ r.handle ++ " = std::make_unique<::agea::reflection::reflection_type>(type_id, AID(\"" ++
       r.name ++ "\"));",
     "        auto& rt = *add(sp, " ++ r.handle ++ ".get());"],
    indented 8 r.statements,
    r.properties.flatMap r.propertyLines,
    ["    \x7d"]]

end Registration

end HeaderReflection
