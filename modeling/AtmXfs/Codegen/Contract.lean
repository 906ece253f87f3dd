import AtmXfs.Lib.Blocks
import AtmXfs.Lib.JsNumber
import Mathlib.Data.List.DropRight

namespace AtmXfs.Codegen

open Blocks

structure EventDef where
  code : List Char
  cls : List Char

structure ServiceDef where
  description : List Char
  hServiceDefault : List Char
  commands : List (List Char × List Char)
  events : List (List Char × EventDef)

/-- The contract; the entries of an object in the order of their enumeration. -/
structure XfsContract where
  preamble : List Char
  resultCodes : List (List Char × Int)
  services : List (List Char × ServiceDef)

/-- `body.replace(/\r\n/g, '\n')`, as both generators write a file. -/
def normalized : List Char → List Char
  | '\r' :: '\n' :: cs => '\n' :: normalized cs
  | c :: cs => c :: normalized cs
  | [] => []

def toLowerCase (s : List Char) : List Char := s.map Char.toLower

def decimal (n : Int) : List Char := (toString n).toList

namespace Ts

def trimEnd (s : List Char) : List Char := s.rdropWhile Js.isSpace

def pascal : List Char → List Char
  | [] => []
  | c :: cs => c.toUpper :: toLowerCase cs

def opensObject (name : List Char) : Line := "export const ".toList ++ name ++ " = \x7b".toList

def closesObject : Line := "\x7d as const;".toList

/-- `NAME: 'CODE',` -/
def entry (name code : List Char) : Line :=
  "  ".toList ++ name ++ ": '".toList ++ code ++ "',".toList

def emitResultCodes (spec : XfsContract) : List Char :=
  unlines (trimEnd spec.preamble :: ([[],
      "/** XFS result codes (negative = error). Generated from spec. */".toList] ++
    opensObject "XFS_RESULT_CODES".toList ::
      ((spec.resultCodes.map fun (name, value) =>
          "  ".toList ++ name ++ ": ".toList ++ decimal value ++ ",".toList) ++
        closesObject :: [[],
          "export type XfsResultCodeName = keyof typeof XFS_RESULT_CODES;".toList,
          ("export type XfsResultCodeValue = " ++
            "(typeof XFS_RESULT_CODES)[XfsResultCodeName];").toList, []])))

/-- The lines of a service before its commands. -/
def beforeCommands (serviceId : List Char) (svc : ServiceDef) : List Line :=
  [[], "/** ".toList ++ serviceId ++ " — ".toList ++ svc.description ++ " */".toList, [],
    "export const ".toList ++ serviceId ++ "_HSERVICE_DEFAULT = '".toList ++
      svc.hServiceDefault ++ "' as const;".toList, [],
    "/** ".toList ++ serviceId ++ " command codes. */".toList]

def beforeEvents (serviceId : List Char) : List Line :=
  [[], "export type ".toList ++ pascal serviceId ++ "CommandCode = (typeof ".toList ++ serviceId ++
      "_CMD)[keyof typeof ".toList ++ serviceId ++ "_CMD];".toList, [],
    "/** ".toList ++ serviceId ++ " event codes. */".toList]

def beforeClasses (serviceId : List Char) : List Line :=
  [[], "export type ".toList ++ pascal serviceId ++ "EventCode = (typeof ".toList ++ serviceId ++
      "_EVT)[keyof typeof ".toList ++ serviceId ++ "_EVT];".toList, [],
    "/** Maps each ".toList ++ serviceId ++ " event code to its XFS event class. */".toList]

def emitService (serviceId : List Char) (svc : ServiceDef) (preamble : List Char) : List Char :=
  unlines (trimEnd preamble :: (beforeCommands serviceId svc ++
    opensObject (serviceId ++ "_CMD".toList) ::
      ((svc.commands.map fun (name, code) => entry name code) ++
        closesObject :: (beforeEvents serviceId ++
    opensObject (serviceId ++ "_EVT".toList) ::
      ((svc.events.map fun (name, evt) => entry name evt.code) ++
        closesObject :: (beforeClasses serviceId ++
    opensObject (serviceId ++ "_EVT_CLASS".toList) ::
      ((svc.events.map fun (_, evt) =>
          "  '".toList ++ evt.code ++ "': '".toList ++ evt.cls ++ "',".toList) ++
        [closesObject, []])))))))

end Ts

namespace Cpp

def preamble : List Line :=
  ["// =============================================================================".toList,
    "// GENERATED FILE — DO NOT EDIT.".toList,
    "// Source: spec/xfs-contract.yaml".toList,
    "// Regenerate via: pnpm codegen".toList,
    "// CI fails if this file is out of date with the spec.".toList,
    "//".toList,
    "// Per Architecture_v3.md §4.4 — single source of truth for TS + C++ contracts.".toList,
    "// =============================================================================".toList]

def opensNamespace (name : List Char) : Line := "namespace ".toList ++ name ++ " \x7b".toList

def closesNamespace (name : List Char) : Line := "\x7d  // namespace ".toList ++ name

/-- The lines of a service in a header. -/
def serviceLines (serviceId : List Char) (svc : ServiceDef) (body : List Line) : List Line :=
  ("// ".toList ++ serviceId ++ " — ".toList ++ svc.description) ::
    opensNamespace (toLowerCase serviceId) :: (body ++
      closesNamespace (toLowerCase serviceId) :: [[]])

def stringView (name code : List Char) : Line :=
  "constexpr std::string_view ".toList ++ name ++ " = \"".toList ++ code ++ "\";".toList

def beforeCommands : List Line :=
  preamble ++ [[], "#pragma once".toList, [], "#include <string_view>".toList, [],
    opensNamespace "zegen::xfs::commands".toList, []]

def emitCommands (spec : XfsContract) : List Char :=
  unlines (beforeCommands ++
    ((spec.services.flatMap fun (serviceId, svc) =>
        serviceLines serviceId svc (svc.commands.map fun (name, code) => stringView name code)) ++
      [closesNamespace "zegen::xfs::commands".toList, []]))

def eventClassEnum (cls : List Char) : Except String (List Char) :=
  if cls = "SRVE".toList then .ok "ServiceEvent".toList
  else if cls = "USRE".toList then .ok "UserEvent".toList
  else if cls = "EXEE".toList then .ok "ExecuteEvent".toList
  else if cls = "SYSE".toList then .ok "SystemEvent".toList
  else .error ("Unknown event class: " ++ String.ofList cls)

def eventClass (name enum : List Char) : Line :=
  "constexpr EventClass ".toList ++ name ++ "_CLASS = EventClass::".toList ++ enum ++ ";".toList

/-- An unknown event class is thrown as soon as it is reached. -/
def eventLines : List (List Char × EventDef) → Except String (List Line)
  | [] => .ok []
  | (name, evt) :: events =>
    match eventClassEnum evt.cls with
    | .error e => .error e
    | .ok enum => (eventLines events).map fun rest =>
      stringView name evt.code :: eventClass name enum :: rest

def beforeEvents : List Line :=
  preamble ++ [[], "#pragma once".toList, [], "#include <string_view>".toList, [],
    opensNamespace "zegen::xfs::events".toList, [],
    "/// XFS event class identifier (per CEN/XFS 3.30 §A.4).".toList,
    "enum class EventClass \x7b".toList,
    "  ServiceEvent,  // SRVE".toList,
    "  UserEvent,     // USRE".toList,
    "  ExecuteEvent,  // EXEE".toList,
    "  SystemEvent,   // SYSE".toList,
    "\x7d;".toList, []]

def eventServices : List (List Char × ServiceDef) → Except String (List Line)
  | [] => .ok []
  | (serviceId, svc) :: services =>
    match eventLines svc.events with
    | .error e => .error e
    | .ok body => (eventServices services).map fun rest => serviceLines serviceId svc body ++ rest

def emitEvents (spec : XfsContract) : Except String (List Char) :=
  (eventServices spec.services).map fun services =>
    unlines (beforeEvents ++ (services ++
      [closesNamespace "zegen::xfs::events".toList, []]))

def emitResultCodes (spec : XfsContract) : List Char :=
  unlines (preamble ++ ([[], "#pragma once".toList, [], "#include <cstdint>".toList, [],
      opensNamespace "zegen::xfs::result_codes".toList, [],
      "/// XFS Service Provider return codes. Negative = error.".toList] ++
    ((spec.resultCodes.map fun (name, value) =>
        "constexpr std::int32_t ".toList ++ name ++ " = ".toList ++ decimal value ++
          ";".toList) ++
      [[], closesNamespace "zegen::xfs::result_codes".toList, []])))

end Cpp

end AtmXfs.Codegen
