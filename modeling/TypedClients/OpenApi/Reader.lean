import TypedClients.Json.Reader
import TypedClients.OpenApi.Document

/-!
# Reading OpenAPI text

A text that is one strictly readable value is decoded as a tree. Any other text is read member by
member, so that the first problem in text order is the one that is reported, and so that the values
under unknown keys, which are skipped, are only held to being well formed.

## Why there are two ways

If the text is one value that can be kept as it is, its tree is decoded, and it is this decoding
that is reasoned about. If it is not, then the text has a fault somewhere, or holds something in a
skipped part that could not be kept, such as a number out of range. Then it depends on the order of
things in the text what is reported, and the second way follows that order.

The version is looked at when the whole document has been read, so a document of an unknown version
is told by its version only if it is well formed.
-/

namespace TypedClients

/-- What is wrong with a document's text. -/
inductive ParseError where
  /-- It is not the JSON of such a document. -/
  | json (fault : Json.Fault)
  /-- It is of a version that is not supported. -/
  | openApiVersion (version : String)
  | asyncApiVersion (version : String)
  deriving DecidableEq, Repr

/-- The message of an error. -/
def ParseError.message : ParseError → String
  | .json fault => "failed to parse JSON: " ++ fault.message
  | .openApiVersion version => "unsupported OpenAPI version: " ++ version
  | .asyncApiVersion version => "unsupported AsyncAPI version: " ++ version

/-- Whether a version is one that can be read. -/
def isSupportedVersion (version : String) : Bool :=
  (Text.after? "3." version).isSome

namespace OpenApi

open Json (readColon readValue readString foldItems foldMembers nextItem skipSpace misfit
  maxNesting)

/-- Reads a value that has to be a string. -/
def readText (s : List Char) : Except Json.Fault (String × List Char) :=
  match skipSpace s with
  | '"' :: r => readString true none [] r
  | r => .error (misfit r)

/-- Passes over a value that is not kept. -/
def skipMember (s : List Char) : Except Json.Fault (List Char) := do
  let s ← readColon s
  let (_, s) ← readValue false (s.length + 1) maxNesting s
  .ok s

/-- Passes the end of an array all of whose fields have been read. -/
def readFieldsEnd (s : List Char) : Except Json.Fault (List Char) :=
  match skipSpace s with
  | [] => .error .truncated
  | ']' :: r => .ok r
  | _ :: _ => .error .malformed

/-- Reads the title out of an `info` value. -/
def readTitle (s : List Char) : Except Json.Fault (String × List Char) :=
  match skipSpace s with
  | '\x7b' :: r => do
    let (title, s) ← foldMembers true
      (fun title key s =>
        if key = "title" then do
          unlessGiven title
          let s ← readColon s
          let (text, s) ← readText s
          .ok (some text, s)
        else do
          let s ← skipMember s
          .ok (title, s))
      (r.length + 1) true none r
    .ok (title.getD "", s)
  | '[' :: r => do
    let (more, s) ← nextItem true r
    if more then
      let (text, s) ← readText s
      let s ← readFieldsEnd s
      .ok (text, s)
    else .ok ("", s)
  | r => .error (misfit r)

/-- Reads the parameters of a path item. -/
def readParameters (s : List Char) : Except Json.Fault (List ParameterItem × List Char) :=
  match skipSpace s with
  | '[' :: r => do
    let (items, s) ← foldItems
      (fun done s => do
        let (value, s) ← readValue true (s.length + 1) (maxNesting - 4) s
        let item ← fitting (ParameterItem.ofJson? value)
        .ok (item :: done, s))
      (r.length + 1) true [] r
    .ok (items.reverse, s)
  | r => .error (misfit r)

/-- Reads a path item. -/
def readPathItem (s : List Char) : Except Json.Fault (PathItem × List Char) :=
  match skipSpace s with
  | '\x7b' :: r => do
    let ((parameters, others), s) ← foldMembers true
      (fun ((parameters, others) : Option (List ParameterItem) × List (String × Json)) key s =>
        if key = "parameters" then do
          unlessGiven parameters
          let s ← readColon s
          let (items, s) ← readParameters s
          .ok ((some items, others), s)
        else do
          let s ← readColon s
          let (value, s) ← readValue true (s.length + 1) (maxNesting - 3) s
          .ok ((parameters, (key, value) :: others), s))
      (r.length + 1) true (none, []) r
    .ok (.ofParts parameters others.reverse, s)
  | r => .error (misfit r)

/-- Reads the path items of a document. -/
def readPaths (s : List Char) : Except Json.Fault (List (String × PathItem) × List Char) :=
  match skipSpace s with
  | '\x7b' :: r => do
    let (items, s) ← foldMembers true
      (fun items key s => do
        let s ← readColon s
        let (item, s) ← readPathItem s
        .ok ((key, item) :: items, s))
      (r.length + 1) true [] r
    .ok (Keyed.ofList items.reverse, s)
  | r => .error (misfit r)

/-- Reads one member of a document into the draft, from behind its key. -/
def Draft.readMember (draft : Draft) (key : String) (s : List Char) :
    Except Json.Fault (Draft × List Char) :=
  match key with
  | "openapi" => do
    unlessGiven draft.version
    let s ← readColon s
    let (version, s) ← readText s
    .ok ({ draft with version := some version }, s)
  | "info" => do
    unlessGiven draft.title
    let s ← readColon s
    let (title, s) ← readTitle s
    .ok ({ draft with title := some title }, s)
  | "paths" => do
    unlessGiven draft.paths
    let s ← readColon s
    let (paths, s) ← readPaths s
    .ok ({ draft with paths := some paths }, s)
  | _ => do
    let s ← skipMember s
    .ok (draft, s)

/-- Reads a document that is an array of its fields. -/
def readFields (s : List Char) : Except Json.Fault (Document × List Char) := do
  let (more, s) ← nextItem true s
  if !more then .error .mismatch
  else
    let (version, s) ← readText s
    let (more, s) ← nextItem false s
    if !more then .error .mismatch
    else
      let (title, s) ← readTitle s
      let (more, s) ← nextItem false s
      if !more then .ok (⟨version, title, []⟩, s)
      else
        let (paths, s) ← readPaths s
        let s ← readFieldsEnd s
        .ok (⟨version, title, paths⟩, s)

/-- Reads a document member by member. -/
def readMembers (s : List Char) : Except Json.Fault (Document × List Char) :=
  match skipSpace s with
  | '\x7b' :: r => do
    let (draft, s) ← foldMembers true Draft.readMember (r.length + 1) true
      (⟨none, none, none⟩ : Draft) r
    let document ← draft.finish
    .ok (document, s)
  | '[' :: r => readFields r
  | r => .error (misfit r)

/-- Reads a document of any version. -/
def Document.read (text : String) : Except Json.Fault Document :=
  match Json.read text with
  | .ok tree => Document.ofJson tree
  | .error _ => Json.readEnd (readMembers text.toList)

/-- Reads a document of a supported version. -/
def Document.parse (text : String) : Except ParseError Document := do
  let document ← (Document.read text).mapError .json
  if isSupportedVersion document.version then .ok document
  else .error (.openApiVersion document.version)

end OpenApi

end TypedClients
