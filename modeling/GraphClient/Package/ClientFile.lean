import GraphClient.Package.Blueprint

/-!
# The file of the client

What every generated function goes through: the request itself, and the writer of the selection sets
that callers ask for. The writer knows the relations of every table.
-/

namespace GraphClient

open TypeScript (TypeExpr Property Declaration Definition Item SourceFile)

/-- A relation field in the relation map: the related table, and whether its rows come in pages. -/
structure RelationEntry where
  field : String
  entity : String
  isConnection : Bool
deriving Repr, DecidableEq, Inhabited

/-- The relation fields of every table. -/
def Schema.relationMap (schema : Schema) : List (String × List RelationEntry) :=
  schema.tables.map fun table =>
    (table.name, table.relations.fields.map fun relation =>
      ⟨relation.name, relation.relatedTable, relation.kind.isCollection⟩)

namespace ClientFile

/-- A text of several lines. -/
def block (lines : List String) : String := String.intercalate "\n" lines

/-- The type of the configuration. -/
def configType : Declaration :=
  .interface "ClientConfig" [.plain "endpoint" (.named "string"),
    .possible "headers" (.generic "Record" [.named "string", .named "string"])]

/-- The configuration of all requests. -/
def configValue : Definition where
  exported := false
  words := "let"
  name := "config"
  rest := ": ClientConfig = \x7b endpoint: '/graphql' \x7d;"

/-- The function that sets the configuration. -/
def configure : Definition where
  comment := "/** Sets the endpoint and headers used by every request. */\n"
  words := "function"
  name := "configure"
  rest := block ["(next: ClientConfig): void \x7b",
    "  config = \x7b ...config, ...next, headers: \x7b ...config.headers, ...next.headers \x7d " ++
      "\x7d;",
    "\x7d"]

/-- The type of an error in an answer. -/
def errorEntry : Declaration :=
  .interface "GraphQLErrorEntry" [.plain "message" (.named "string"),
    .possible "path" (.array ((TypeExpr.named "string").or (.named "number"))),
    .possible "extensions" (.generic "Record" [.named "string", .named "unknown"])]

/-- The error that a failed request throws. -/
def requestError : Definition where
  words := "class"
  name := "GraphQLRequestError"
  rest := block [" extends Error \x7b",
    "  constructor(",
    "    public readonly errors: GraphQLErrorEntry[],",
    "    public readonly status?: number,",
    "  ) \x7b",
    "    super(errors.map((error) => error.message).join('\\n') || " ++
      "`request failed with status $\x7bstatus\x7d`);",
    "    this.name = 'GraphQLRequestError';",
    "  \x7d",
    "\x7d"]

/-- The function that sends a request. -/
def execute : Definition where
  comment := "/** Sends one operation and returns its `data`, " ++
    "throwing on transport and GraphQL errors. */\n"
  words := "async function"
  name := "execute"
  rest := block ["<TData, TVariables = Record<string, never>>(",
    "  document: string,",
    "  variables?: TVariables,",
    "): Promise<TData> \x7b",
    "  const response = await fetch(config.endpoint, \x7b",
    "    method: 'POST',",
    "    headers: \x7b 'Content-Type': 'application/json', ...config.headers \x7d,",
    "    body: JSON.stringify(\x7b query: document, variables \x7d),",
    "  \x7d);",
    "",
    "  const body = (await response.json().catch(() => (\x7b\x7d))) as " ++
      "\x7b data?: TData; errors?: GraphQLErrorEntry[] \x7d;",
    "",
    "  if (!response.ok || body.errors?.length) \x7b",
    "    throw new GraphQLRequestError(body.errors ?? [], response.status);",
    "  \x7d",
    "",
    "  return body.data as TData;",
    "\x7d"]

/-- The names of page fields and arguments. -/
def pagination (page : PageNames) : Definition where
  exported := false
  words := "const"
  name := "pagination"
  rest := block [" = \x7b",
    "  totalCount: '" ++ page.count ++ "',",
    "  nodes: '" ++ page.rows ++ "',",
    "  filter: '" ++ page.filter ++ "',",
    "  orderBy: '" ++ page.order ++ "',",
    "\x7d as const;"]

/-- An entry of the relation map. -/
def entryLine (entry : RelationEntry) : String :=
  "    " ++ entry.field ++ ": \x7b entity: '" ++ entry.entity ++ "', connection: " ++
    (if entry.isConnection then "true" else "false") ++ " \x7d,"

/-- The lines of the relation map for a table. -/
def tableLines (name : String) (entries : List RelationEntry) : List String :=
  if entries.isEmpty then ["  " ++ name ++ ": \x7b\x7d,"]
  else ["  " ++ name ++ ": \x7b"] ++ entries.map entryLine ++ ["  \x7d,"]

/-- The relation map. -/
def relations (schema : Schema) : Definition where
  exported := false
  words := "const"
  name := "relations"
  rest := block (
    [": Record<string, Record<string, \x7b entity: string; connection: boolean \x7d>> = \x7b"] ++
      (schema.relationMap.flatMap fun p => tableLines p.1 p.2) ++ ["\x7d;"])

/-- The type of a nested selection. -/
def nestedSelect : Item := .code (block ["interface NestedSelect \x7b",
  "  select?: object;",
  "  first?: number;",
  "  [argument: string]: unknown;",
  "\x7d"])

/-- The function that writes an argument. -/
def literal : Definition where
  exported := false
  comment := "/** A GraphQL input literal. With `enums`, strings are written as enum values. */\n"
  words := "function"
  name := "literal"
  rest := block ["(value: unknown, enums = false): string \x7b",
    "  if (value === null || value === undefined) \x7b",
    "    return 'null';",
    "  \x7d",
    "  if (Array.isArray(value)) \x7b",
    "    return `[$\x7bvalue.map((item) => literal(item, enums)).join(', ')\x7d]`;",
    "  \x7d",
    "  if (typeof value === 'string' && enums) \x7b",
    "    return value;",
    "  \x7d",
    "  if (typeof value === 'object') \x7b",
    "    const fields = Object.entries(value)",
    "      .filter(([, field]) => field !== undefined)",
    "      .map(([name, field]) => `$\x7bname\x7d: $\x7bliteral(field)\x7d`);",
    "    return fields.length > 0 ? `\x7b $\x7bfields.join(', ')\x7d \x7d` : '\x7b\x7d';",
    "  \x7d",
    "  return JSON.stringify(value);",
    "\x7d"]

/-- The function that writes a selection set. -/
def selectionSet : Definition where
  comment := block ["/**",
    " * The selection set of `select` on `entity`, one field per line, `depth` levels deep.",
    " *",
    " * Paginated relations select their total count and nodes. A selection without",
    " * fields selects `__typename`.",
    " */", ""]
  words := "function"
  name := "selectionSet"
  rest := block ["(entity: string, select: object, depth = 0): string \x7b",
    "  const indent = '  '.repeat(depth);",
    "  const lines: string[] = [];",
    "",
    "  for (const [field, value] of Object.entries(select)) \x7b",
    "    if (value === true) \x7b",
    "      lines.push(`$\x7bindent\x7d$\x7bfield\x7d`);",
    "      continue;",
    "    \x7d",
    "    if (value === null || typeof value !== 'object') \x7b",
    "      continue;",
    "    \x7d",
    "",
    "    const nested = value as NestedSelect;",
    "    const relation = relations[entity]?.[field];",
    "",
    "    if (!relation?.connection) \x7b",
    "      lines.push(`$\x7bindent\x7d$\x7bfield\x7d \x7b`, " ++
      "selectionSet(relation?.entity ?? '', nested.select ?? \x7b\x7d, depth + 1), " ++
      "`$\x7bindent\x7d\x7d`);",
    "      continue;",
    "    \x7d",
    "",
    "    const args: string[] = [];",
    "    if (nested.first !== undefined) \x7b",
    "      args.push(`first: $\x7bliteral(nested.first)\x7d`);",
    "    \x7d",
    "    if (nested[pagination.filter] !== undefined) \x7b",
    "      args.push(`$\x7bpagination.filter\x7d: $\x7bliteral(nested[pagination.filter])\x7d`);",
    "    \x7d",
    "    if (nested[pagination.orderBy] !== undefined) \x7b",
    "      args.push(`$\x7bpagination.orderBy\x7d: " ++
      "$\x7bliteral(nested[pagination.orderBy], true)\x7d`);",
    "    \x7d",
    "",
    "    lines.push(",
    "      args.length > 0 ? `$\x7bindent\x7d$\x7bfield\x7d($\x7bargs.join(', ')\x7d) \x7b` : " ++
      "`$\x7bindent\x7d$\x7bfield\x7d \x7b`,",
    "      `$\x7bindent\x7d  $\x7bpagination.totalCount\x7d`,",
    "      `$\x7bindent\x7d  $\x7bpagination.nodes\x7d \x7b`,",
    "      selectionSet(relation.entity, nested.select ?? \x7b\x7d, depth + 2),",
    "      `$\x7bindent\x7d  \x7d`,",
    "      `$\x7bindent\x7d\x7d`,",
    "    );",
    "  \x7d",
    "",
    "  return lines.length > 0 ? lines.join('\\n') : `$\x7bindent\x7d__typename`;",
    "\x7d"]

/-- The file of the client. -/
def file (blueprint : Blueprint) : SourceFile where
  header := some (fileHeader "GraphQL transport")
  items := [.exported configType, .definition configValue, .definition configure,
    .exported errorEntry, .definition requestError, .definition execute,
    .definition (pagination blueprint.page), .definition (relations blueprint.schema), nestedSelect,
    .definition literal, .definition selectionSet]

end ClientFile

end GraphClient
