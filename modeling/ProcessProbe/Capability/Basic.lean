import ProcessProbe.Host.Request
import ProcessProbe.Json.Record

/-!
# Capabilities

What a host offers: its platform, its sources of data, and which of the diagnostics are there and work.
-/

namespace ProcessProbe

/-- What is known of a tool, with the reason when it does not work. -/
structure Tool where
  available : Bool
  path : Option String
  works : Bool
  error : Option String
  deriving Repr, DecidableEq

namespace Tool

def missing : Tool := ⟨false, none, false, none⟩

def broken (path error : String) : Tool := ⟨true, some path, false, some error⟩

def working (path : String) : Tool := ⟨true, some path, true, none⟩

/-- Whether a strategy that depends on the tool is worth trying. -/
def usable (t : Tool) : Bool := t.available && t.works

def toJson (t : Tool) : Json :=
  .object [("available", .bool t.available), ("path", .ofOption .text t.path), ("works", .bool t.works),
    ("error", .ofOption .text t.error)]

def ofJson? (v : Json) : Option Tool := do
  match ← Json.record? ["available", "path", "works", "error"] v with
  | [available, path, works, error] =>
    return ⟨← Json.required? Json.bool? available, ← Json.absent? Json.text? path, ← Json.required? Json.bool? works,
      ← Json.absent? Json.text? error⟩
  | _ => none

end Tool

def Platform.toJson (p : Platform) : Json :=
  .object [("os", .text p.os), ("kernel_release", .ofOption .text p.kernelRelease), ("arch", .text p.arch)]

def Platform.ofJson? (v : Json) : Option Platform := do
  match ← Json.record? ["os", "kernel_release", "arch"] v with
  | [os, release, arch] =>
    return ⟨← Json.required? Json.text? os, ← Json.absent? Json.text? release, ← Json.required? Json.text? arch⟩
  | _ => none

/-- What the host has to offer: a process file system, an interface to processes, tools, and whether `pgrep` can select
processes by their state. -/
structure Capabilities where
  platform : Platform
  procfs : Bool
  nativeApi : Bool
  ps : Tool
  pgrep : Tool
  lsof : Tool
  selectsStates : Bool
  detectedAt : String
  deriving Repr, DecidableEq

namespace Capabilities

def none (platform : Platform) (detectedAt : String) : Capabilities :=
  ⟨platform, false, false, .missing, .missing, .missing, false, detectedAt⟩

def tools (c : Capabilities) : List Tool := [c.ps, c.pgrep, c.lsof]

def usableCount (c : Capabilities) : Nat := c.tools.countP Tool.usable

def totalCount : Nat := 3

def summary (c : Capabilities) : String :=
  let release := c.platform.kernelRelease.getD "unknown"
  s!"Platform: {c.platform.os} {release} | Sources: procfs={c.procfs} native={c.nativeApi} | " ++
    s!"Tools: {c.usableCount}/{totalCount}"

def toJson (c : Capabilities) : Json :=
  .object [("platform", c.platform.toJson),
    ("data_sources", .object [("procfs", .bool c.procfs), ("native_api", .bool c.nativeApi)]),
    ("tools", .object [("ps", c.ps.toJson), ("pgrep", c.pgrep.toJson), ("lsof", c.lsof.toJson)]),
    ("pgrep_runstates", .bool c.selectsStates), ("detected_at", .text c.detectedAt)]

def ofJson? (v : Json) : Option Capabilities := do
  match ← Json.record? ["platform", "data_sources", "tools", "pgrep_runstates", "detected_at"] v with
  | [platform, sources, tools, states, detected] =>
    let platform ← Json.required? Platform.ofJson? platform
    match ← Json.required? (Json.record? ["procfs", "native_api"]) sources,
        ← Json.required? (Json.record? ["ps", "pgrep", "lsof"]) tools with
    | [procfs, native], [ps, pgrep, lsof] =>
      return ⟨platform, ← Json.required? Json.bool? procfs, ← Json.required? Json.bool? native,
        ← Json.required? Tool.ofJson? ps, ← Json.required? Tool.ofJson? pgrep, ← Json.required? Tool.ofJson? lsof,
        ← Json.required? Json.bool? states, ← Json.required? Json.text? detected⟩
    | _, _ => .none
  | _ => .none

end Capabilities

end ProcessProbe
