import Retrieval.Fault
import Retrieval.Http.Escape

/-!
# Routes

The path of a request names a resource, and its method what is done with it. Fixed words may be in
capital or small letters, and one slash at the end does not count.
-/

namespace Retrieval.Http

/-- The operations of the application. Identifiers are as they stand in the path. -/
inductive Operation where
  | health
  | createStore
  | listStores
  | getStore (id : String)
  | deleteStore (id : String)
  | createFile (storeId : String)
  | listFiles (storeId : String)
  | getFile (storeId fileId : String)
  | deleteFile (storeId fileId : String)
  | search (storeId : String)
deriving Repr, DecidableEq

namespace Operation

def embeds : Operation → Bool
  | createFile _ | search _ => true
  | _ => false

end Operation

/-- The segments of a path that begins with a slash; one slash at the end does not count. -/
def segmentsOf (path : String) : List (List Char) :=
  match path.toList.splitOn '/' with
  | [] :: parts => if parts.length > 1 && parts.getLast? == some [] then parts.dropLast else parts
  | _ => []

/-- The segment is a fixed word, in capital or small letters. -/
def isWord (word : String) (segment : List Char) : Bool :=
  segment.map Char.toLower == word.toList

inductive Route where
  | health
  | stores
  | store (id : List Char)
  | files (id : List Char)
  | file (id fileId : List Char)
  | search (id : List Char)
deriving Repr, DecidableEq

def routeOf? (path : String) : Option Route :=
  let versioned (a b : List Char) : Bool := isWord "v1" a && isWord "vector_stores" b
  match segmentsOf path with
  | [a] => if isWord "health" a then some .health else none
  | [a, b] => if versioned a b then some .stores else none
  | [a, b, id] => if versioned a b && !id.isEmpty then some (.store id) else none
  | [a, b, id, c] =>
    if versioned a b && !id.isEmpty then
      if isWord "files" c then some (.files id)
      else if isWord "search" c then some (.search id)
      else none
    else none
  | [a, b, id, c, fileId] =>
    if versioned a b && !id.isEmpty && isWord "files" c && !fileId.isEmpty then
      some (.file id fileId)
    else none
  | _ => none

def parameter (cs : List Char) : Except Fault String :=
  match unescape? cs with
  | some s => .ok s
  | none =>
    .error (.other "URIError" ("Failed to decode param '" ++ String.ofList cs ++ "'") none)

/-- The operation that serves a method, in capitals, on a route, if any does. Malformed escapes in
the path are a fault for every method. -/
def operationOf? (method : String) (route : Route) : Except Fault (Option Operation) := do
  let reads := method == "GET" || method == "HEAD"
  match route with
  | .health => pure (if reads then some .health else none)
  | .stores =>
    pure (if reads then some .listStores else if method == "POST" then some .createStore else none)
  | .store id => do
    let id ← parameter id
    pure (if reads then some (.getStore id)
      else if method == "DELETE" then some (.deleteStore id) else none)
  | .files id => do
    let id ← parameter id
    pure (if reads then some (.listFiles id)
      else if method == "POST" then some (.createFile id) else none)
  | .file id fileId => do
    let id ← parameter id
    let fileId ← parameter fileId
    pure (if reads then some (.getFile id fileId)
      else if method == "DELETE" then some (.deleteFile id fileId) else none)
  | .search id => do
    let id ← parameter id
    pure (if method == "POST" then some (.search id) else none)

end Retrieval.Http
