import GraphClient.CacheKey.Expression
import GraphClient.Package.Blueprint
import GraphClient.Projection.Typed
import GraphClient.Request.Basic
import GraphClient.Naming.Operation

/-!
# Parts of operation files

An operation file is put together from parts: documents with their variables, answers, functions,
and hooks. A part knows its items, what it imports, which types it mentions and how many hooks it
holds.

* `Fragment` : parts, with their concatenation.
* `Fragment.document`, `Fragment.answer`, `Fragment.sender` : the parts of every operation.
* `Fragment.queryHook`, `Fragment.mutationHook` : the hooks; they are empty if hooks are not wanted.
* `Fragment.file` : the finished file.
-/

namespace GraphClient

open TypeScript (TypeExpr Property Declaration Definition Item ImportSet SourceFile)

/-- A part of an operation file. -/
structure Fragment where
  items : List Item := []
  imports : ImportSet := {}
  /-- The types of the schema that the part mentions. -/
  mentions : List String := []
  hooks : Nat := 0
deriving Inhabited

namespace Fragment

/-- Two parts, one after the other. -/
def append (a b : Fragment) : Fragment :=
  ⟨a.items ++ b.items, a.imports ++ b.imports, a.mentions ++ b.mentions, a.hooks + b.hooks⟩

instance : Append Fragment := ⟨append⟩

@[simp] theorem items_append (a b : Fragment) : (a ++ b).items = a.items ++ b.items := rfl

@[simp] theorem imports_append (a b : Fragment) : (a ++ b).imports = a.imports ++ b.imports := rfl

@[simp] theorem mentions_append (a b : Fragment) :
    (a ++ b).mentions = a.mentions ++ b.mentions := rfl

@[simp] theorem hooks_append (a b : Fragment) : (a ++ b).hooks = a.hooks + b.hooks := rfl

/-- A part that only imports. -/
def importing (imports : ImportSet) : Fragment := { imports }

/-- A part if a condition holds, else nothing. -/
def when (condition : Bool) (fragment : Fragment) : Fragment := if condition then fragment else {}

/-- The source of the hook library. -/
def hookLibrary : String := "@tanstack/react-query"

/-- The lines of a function that follow its name, up to the brace that closes it. -/
def body (lines : List String) : String := String.intercalate "\n" lines

/-- The type of the variables of a document. -/
def variablesType (scalars : ScalarSettings) (names : OperationNames) (document : Document) :
    Declaration :=
  if document.declarations.isEmpty then
    .typeAlias names.variablesType (.generic "Record" [.named "string", .named "never"])
  else
    .interface names.variablesType (document.declarations.map fun declared =>
      .possibleIf (!declared.type.isRequired) declared.name (scalars.expr declared.type))

/-- The constant that holds the text of a document. -/
def documentConstant (names : OperationNames) (document : Document) : Definition where
  words := "const"
  name := names.document
  rest := " = /* GraphQL */ `\n" ++ TypeScript.templateText document.text ++ "`;"

/-- The document of an operation and the type of its variables. -/
def document (scalars : ScalarSettings) (names : OperationNames) (document : Document) :
    Fragment where
  items := [.definition (documentConstant names document),
    .exported (variablesType scalars names document)]
  mentions := document.declarations.flatMap fun declared => declared.type.mentions

/-- What the type of a projection needs. -/
def projection (projection : Projection) : Fragment where
  imports :=
    if projection.hasConnections then .typesFrom "../select-types" [connectionType] else {}
  mentions := projection.mentions

/-- The type of an answer, with the root field as its only property. -/
def answer (names : OperationNames) (field : String) (type : TypeExpr) : Fragment where
  items := [.exported (.interface names.result [.plain field type])]

/-- Whether every variable of a document may be left out. -/
def allOptional (document : Document) : Bool :=
  document.declarations.all fun declared => !declared.type.isRequired

/-- The parameter for the variables, with a default if all of them may be left out. -/
def variablesParameter (names : OperationNames) (optional : Bool) : String :=
  "variables: " ++ names.variablesType ++ (if optional then " = \x7b\x7d" else "")

/-- The function that sends a document with some variables. -/
def sender (names : OperationNames) (optional : Bool) : Fragment where
  items := [.definition {
    words := "async function"
    name := names.function
    rest := body ["(" ++ variablesParameter names optional ++ "): Promise<" ++ names.result ++
        "> \x7b",
      "  return execute<" ++ names.result ++ ", " ++ names.variablesType ++ ">(" ++
        names.document ++ ", variables);",
      "\x7d"] }]
  imports := .value "../client" "execute"

/-- The parameter for the scope of cache keys. -/
def scopeParameter (scope : Option String) : String :=
  scope.elim "" fun type => ", scope?: " ++ type

/-- The hook of a query, and the function that fills the cache ahead of time. `key` is the text of
the cache key, and `scope` the type of its scope, if it has one. -/
def queryHook (wanted : Bool) (names : OperationNames) (optional : Bool) (key : String)
    (scope : Option String) : Fragment :=
  let parameter := variablesParameter names optional
  when wanted {
    items := [
      .definition {
        words := "function"
        name := names.hook
        rest := body ["(" ++ parameter ++ ", options?: Omit<UseQueryOptions<" ++ names.result ++
            ">, 'queryKey' | 'queryFn'>" ++ scopeParameter scope ++ ") \x7b",
          "  return useQuery(\x7b",
          "    queryKey: " ++ key ++ ",",
          "    queryFn: () => " ++ names.function ++ "(variables),",
          "    ...options,",
          "  \x7d);",
          "\x7d"] },
      .definition {
        words := "function"
        name := names.prefetch
        rest := body ["(queryClient: QueryClient, " ++ parameter ++ scopeParameter scope ++
            "): Promise<void> \x7b",
          "  return queryClient.prefetchQuery(\x7b",
          "    queryKey: " ++ key ++ ",",
          "    queryFn: () => " ++ names.function ++ "(variables),",
          "  \x7d);",
          "\x7d"] }]
    imports := .value hookLibrary "useQuery" ++ .typesFrom hookLibrary ["QueryClient"] ++
      .typesFrom hookLibrary ["UseQueryOptions"]
    hooks := 1 }

/-- The lines of a mutation hook that make keys stale. -/
def invalidationLines (invalidated : List String) : List String :=
  if invalidated.isEmpty then []
  else
    ["    onSuccess: (data, variables, ...rest) => \x7b"] ++
      (invalidated.map fun key =>
        "      void queryClient.invalidateQueries(\x7b queryKey: " ++ key ++ " \x7d);") ++
      ["      return options?.onSuccess?.(data, variables, ...rest);",
        "    \x7d,"]

/-- The hook of a mutation. `key` is the text of the mutation key, if it has one, and `invalidated`
are the texts of the keys that it makes stale. -/
def mutationHook (wanted : Bool) (names : OperationNames) (key : Option String)
    (invalidated : List String) : Fragment :=
  when wanted {
    items := [.definition {
      words := "function"
      name := names.hook
      rest := body (
        ["(options?: Omit<UseMutationOptions<" ++ names.result ++ ", Error, " ++
          names.variablesType ++ ">, 'mutationKey' | 'mutationFn'>) \x7b"] ++
        (if invalidated.isEmpty then [] else ["  const queryClient = useQueryClient();", ""]) ++
        ["  return useMutation(\x7b"] ++
        (key.toList.map fun key => "    mutationKey: " ++ key ++ ",") ++
        ["    mutationFn: (variables: " ++ names.variablesType ++ ") => " ++ names.function ++
          "(variables),",
          "    ...options,"] ++
        invalidationLines invalidated ++
        ["  \x7d);", "\x7d"]) }]
    imports := .value hookLibrary "useMutation" ++ .typesFrom hookLibrary ["UseMutationOptions"] ++
      (if invalidated.isEmpty then {} else .value hookLibrary "useQueryClient")
    hooks := 1 }

/-- The mentioned types, split by where they are defined. -/
def references (defined : NameSet) (fragment : Fragment) : References :=
  .ofNames defined fragment.mentions

/-- All that a part imports: what it asks for, and the types that it mentions. -/
def allImports (defined : NameSet) (fragment : Fragment) : ImportSet :=
  fragment.imports ++
    .typesFrom "../types" (fragment.references defined).tableTypes.names ++
    .typesFrom "../schema-types" (fragment.references defined).schemaTypes.names

/-- The finished file of a part. -/
def file (defined : NameSet) (description : String) (fragment : Fragment) : SourceFile where
  header := some (fileHeader description)
  imports := (fragment.allImports defined).statements
  items := fragment.items

end Fragment

end GraphClient
