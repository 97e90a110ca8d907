import MigrationAudit.Facts.Lists
import MigrationAudit.Java.Declaration
import MigrationAudit.Sql.Statement
import MigrationAudit.Text.Cursor

/-!
# Conventions of Spring and JPA

What annotations, names and supertypes tell about a type and its methods: the role of the type, its
table, the endpoints it serves, the entity it stores, and the statements of its queries.
-/

namespace MigrationAudit.Java

open Text Source

def annotatedStereotype? (name : String) : Option Stereotype :=
  match name with
  | "RestController" | "Controller" => some .controller
  | "Service" => some .service
  | "Repository" => some .repository
  | "Entity" | "Embeddable" | "MappedSuperclass" => some .entity
  | "Configuration" | "SpringBootApplication" => some .configuration
  | "Component" => some .component
  | _ => none

def namedStereotype? (name : String) : Option Stereotype :=
  if name.endsWith "Controller" || name.endsWith "Resource" then some .controller
  else if name.endsWith "Service" || name.endsWith "ServiceImpl" then some .service
  else if name.endsWith "Repository" || name.endsWith "Dao" || name.endsWith "DAO" then
    some .repository
  else if name.endsWith "Config" || name.endsWith "Configuration" then some .configuration
  else none

def repositoryTypes : List String :=
  ["Repository", "JpaRepository", "CrudRepository", "PagingAndSortingRepository",
    "ListCrudRepository", "MongoRepository", "ReactiveRepository"]

/-- A stored entity: the supertype with its arguments, and the simple name of the entity. -/
structure StoredEntity where
  raw : String
  entity : String
deriving DecidableEq, Repr

/-- A dotted name at the cursor, white space, and then a given mark; with the cursor behind that. -/
def argument? (mark : Char) (c : Cursor) : Option (String × Cursor) :=
  let isPart (a : Char) := isNameChar a || a == '.'
  let behind := (c.skipWhile isPart).skipBlank
  match c.after.takeWhile isPart, behind.after with
  | [], _ => none
  | name, a :: _ => if a == mark then some (String.ofList name, behind.next.skipBlank) else none
  | _, [] => none

def StoredEntity.here? (c : Cursor) : Option StoredEntity := do
  let type := String.ofList (c.after.takeWhile isNameChar)
  if !(c.atRunStart isNameChar && repositoryTypes.contains type) then none
  let bracket := (c.skipWhile isNameChar).skipBlank
  if bracket.after.head? != some '<' then none
  let (entity, c) ← argument? ',' bracket.next.skipBlank
  let (key, _) ← argument? '>' c
  some ⟨type ++ "<" ++ entity ++ ", " ++ key ++ ">", lastComponent entity⟩

def storedEntity? (header : List Char) : Option StoredEntity :=
  (Cursor.places header).findSome? StoredEntity.here?

/-- The role of a type: by its annotations, by its supertypes, or else by its name. -/
def stereotype? (code : List Char) (t : ParsedType) : Option Stereotype :=
  match t.annotations.findSome? fun a => annotatedStereotype? a.name with
  | some s => some s
  | none =>
    if t.kind == .interfaceType && (storedEntity? (t.header.slice code)).isSome then
      some .repository
    else namedStereotype? t.name

/-- The word in an argument list that is one of the keys and is assigned. -/
def assignedKey? (source : Masked) (args : Span) (keys : List String) : Option Word :=
  (Cursor.within source.code args.start args.stop).words.find? fun w =>
    keys.contains (String.ofList w.text) && (trimStart w.behind.after).head? == some '='

/-- The value of an attribute: the first literal from one of its keys on; without a key the first
literal, if nothing is assigned in front of it. -/
def attribute? (source : Masked) (a : Annotation) (keys : List String) : Option (List Char) :=
  a.args.bind fun args =>
    match assignedKey? source args keys with
    | some w => (source.literalsIn ⟨w.start, args.stop⟩).head?.map (·.value)
    | none =>
      (source.literalsIn args).head?.bind fun literal =>
        if (Span.slice ⟨args.start, literal.span.start⟩ source.code).contains '=' then none
        else some literal.value

def annotated? (annotations : List Annotation) (names : List String) : Option Annotation :=
  annotations.find? fun a => names.contains a.name

def tableName? (source : Masked) (t : ParsedType) : Option String := do
  let a ← annotated? t.annotations ["Table"]
  let name ← attribute? source a ["name"]
  if name.isEmpty then none else some (String.ofList name)

/-- The path in front of all endpoints of a type. -/
def basePath? (source : Masked) (t : ParsedType) : Option (List Char) := do
  let a ← annotated? t.annotations ["RequestMapping"]
  attribute? source a ["value", "path"]

/-- The word behind the first `RequestMethod` in an argument list. -/
def requestMethod? (source : Masked) (args : Span) : Option (List Char) :=
  let ws := (Cursor.within source.code args.start args.stop).words
  ((ws.zip (ws.drop 1)).find? fun (previous, _) => previous.text == "RequestMethod".toList).map
    fun (_, w) => w.text

def httpMethod? (source : Masked) (a : Annotation) : Option String :=
  match a.name with
  | "GetMapping" => some "GET"
  | "PostMapping" => some "POST"
  | "PutMapping" => some "PUT"
  | "DeleteMapping" => some "DELETE"
  | "PatchMapping" => some "PATCH"
  | "RequestMapping" =>
    match a.args.bind (requestMethod? source) with
    | some method => some (String.ofList (method.map Char.toUpper))
    | none => some "ANY"
  | _ => none

/-- One absolute path of the parts that are not empty. -/
def joinPaths (parts : List (List Char)) : List Char :=
  match (parts.map fun p => trimWhere (· == '/') (trim p)).filter (!·.isEmpty) with
  | [] => ['/']
  | parts => parts.flatMap ('/' :: ·)

def endpoint? (source : Masked) (base : Option (List Char)) (annotations : List Annotation) :
    Option Endpoint :=
  annotations.findSome? fun a =>
    (httpMethod? source a).map fun httpMethod =>
      let path := attribute? source a ["value", "path"]
      { httpMethod, path := String.ofList (joinPaths (base.toList ++ path.toList)) }

/-- The statement that an annotation gives to a method, and the number of a literal in its
arguments. -/
structure Query where
  literalIndex : Nat
  text : String
  kind : DataOpKind
  table : Option String
deriving DecidableEq, Repr

/-- The statement that the annotations of a method give to it; its literal is the first one in the
arguments. -/
def query? (source : Masked) (annotations : List Annotation) : Option Query := do
  let a ← annotated? annotations ["Query", "NativeQuery"]
  let value ← attribute? source a ["value"]
  let args ← a.args
  let literalIndex ← source.literals.findIdx? fun l => args.contains l.span.start
  let text := squash value
  some
    { literalIndex
      text := String.ofList text
      kind := (Sql.kindOf? text).getD .otherSql
      table := Sql.tableOf? text }

end MigrationAudit.Java
