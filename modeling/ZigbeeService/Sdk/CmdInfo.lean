-- SUMMARY: The table of commands of a profile, and how a command name is resolved in it.
import ZigbeeService.Rest.Records

/-!
# Command resolution

`edgex_deviceprofile_findcommand` and `commandExists` of `device.c`. The table they search is built
when it is first needed: the commands of the profile in order, then its resources, except those that
have the name of a command.
-/

namespace Zigbee

open CLib

/-! ## The table -/

/-- `findDevResource`. -/
def findDevResource (list : List DeviceResource) (name : Text) : Option DeviceResource :=
  list.find? fun devres => devres.name = name

/-- `forGet ? cmd->get : cmd->set`. -/
def DeviceCommand.ops (cmd : DeviceCommand) (forGet : Bool) : List ResourceOperation :=
  if forGet then cmd.get else cmd.set

/-- `forGet ? readable : writable`. -/
def PropertyValue.allows (pval : PropertyValue) (forGet : Bool) : Bool :=
  if forGet then pval.readable else pval.writable

/-- What a command asks of a resource. -/
def requestFor (devres : DeviceResource) (mappings : NvPairs) : CmdRequest where
  resname := devres.name
  attributes := devres.attributes
  type := devres.properties.value.type
  pval := devres.properties.value
  map := mappings

/-- One round of the loop of `infoForRes`. -/
def requestForOp (prof : DeviceProfile) (ro : ResourceOperation) : Checked CmdRequest :=
  match findDevResource prof.deviceResources ro.object with
  | none => .error .nullPointer
  | some devres => .ok (requestFor devres ro.mappings)

/-- `infoForRes`. -/
def infoForRes (prof : DeviceProfile) (cmd : DeviceCommand) (forGet : Bool) : Checked CmdInfo := do
  let reqs ← (cmd.ops forGet).mapM (requestForOp prof)
  return { name := cmd.name, isget := forGet, reqs }

/-- `infoForDevRes`. -/
def infoForDevRes (devres : DeviceResource) (forGet : Bool) : CmdInfo where
  name := devres.name
  isget := forGet
  reqs := [requestFor devres []]

/-- `if (ops) *head = infoForRes (…)`, with the tail of the table moved on. -/
def appendInfo (prof : DeviceProfile) (cmd : DeviceCommand) (forGet : Bool)
    (table : List CmdInfo) : Checked (List CmdInfo) :=
  if cmd.ops forGet = [] then return table
  else do
    let info ← infoForRes prof cmd forGet
    return table ++ [info]

/-- The loop of `populateCmdInfo` over the commands. -/
def appendCommands (prof : DeviceProfile) :
    List DeviceCommand → List CmdInfo → Checked (List CmdInfo)
  | [], table => return table
  | cmd :: cmds, table => do
    let table ← appendInfo prof cmd true table
    let table ← appendInfo prof cmd false table
    appendCommands prof cmds table

/-- The loop of `populateCmdInfo` over the resources. -/
def appendResources (prof : DeviceProfile) : List DeviceResource → List CmdInfo → List CmdInfo
  | [], table => table
  | devres :: list, table =>
    let table :=
      if prof.deviceCommands.any fun dc => dc.name = devres.name then table
      else
        let table :=
          if devres.properties.value.readable then table ++ [infoForDevRes devres true] else table
        if devres.properties.value.writable then table ++ [infoForDevRes devres false] else table
    appendResources prof list table

/-- `populateCmdInfo`. -/
def populateCmdInfo (prof : DeviceProfile) : Checked DeviceProfile := do
  let table ← appendCommands prof prof.deviceCommands []
  return { prof with cmdinfo := appendResources prof prof.deviceResources table }

/-- The table is built by the first call. -/
def ensureCmdInfo (prof : DeviceProfile) : Checked DeviceProfile :=
  if prof.cmdinfo = [] then populateCmdInfo prof else return prof

/-- `edgex_deviceprofile_findcommand`, with the profile as the call leaves it. -/
def edgexDeviceprofileFindcommand (name : Text) (prof : DeviceProfile) (forGet : Bool) :
    Checked (Option CmdInfo × DeviceProfile) := do
  let prof ← ensureCmdInfo prof
  return (prof.cmdinfo.find? fun info => info.name = name ∧ forGet = info.isget, prof)

/-- `commandExists`, with the profile as the call leaves it. -/
def commandExists (name : Text) (prof : DeviceProfile) : Checked (Bool × DeviceProfile) := do
  let prof ← ensureCmdInfo prof
  return (prof.cmdinfo.any fun info => info.name = name, prof)

/-! ## What a name stands for -/

/-- Every operation is about a resource of the profile. -/
def DeviceProfile.OpsNamed (prof : DeviceProfile) : Prop :=
  ∀ cmd ∈ prof.deviceCommands, ∀ ro ∈ cmd.set ++ cmd.get,
    ∃ devres ∈ prof.deviceResources, devres.name = ro.object

/-- The request of an operation: the first resource of the name it gives, and its mappings. -/
def IsRequest (prof : DeviceProfile) (ro : ResourceOperation) (req : CmdRequest) : Prop :=
  ∃ devres, prof.deviceResources.find? (fun devres => devres.name = ro.object) = some devres ∧
    req.resname = devres.name ∧ req.attributes = devres.attributes ∧
    req.type = devres.properties.value.type ∧ req.pval = devres.properties.value ∧
    req.map = ro.mappings

/-- The documented meaning of a name in one direction: a command takes precedence over a resource of
its name, also where it has no operations. -/
inductive Resolves (prof : DeviceProfile) (name : Text) (forGet : Bool) : Option CmdInfo → Prop where
  /-- The first command of the name with operations in this direction. -/
  | command {cmd : DeviceCommand} {info : CmdInfo} :
      prof.deviceCommands.find? (fun cmd => cmd.name = name ∧ cmd.ops forGet ≠ []) = some cmd →
      info.name = name → info.isget = forGet →
      List.Forall₂ (IsRequest prof) (cmd.ops forGet) info.reqs →
      Resolves prof name forGet (some info)
  /-- Commands of the name, but none with operations in this direction. -/
  | shadowed :
      (∃ cmd ∈ prof.deviceCommands, cmd.name = name) →
      (∀ cmd ∈ prof.deviceCommands, cmd.name = name → cmd.ops forGet = []) →
      Resolves prof name forGet none
  /-- No command of the name: the first resource of the name that allows this direction. -/
  | resource {devres : DeviceResource} :
      (∀ cmd ∈ prof.deviceCommands, cmd.name ≠ name) →
      prof.deviceResources.find?
        (fun devres => devres.name = name ∧ devres.properties.value.allows forGet) = some devres →
      Resolves prof name forGet
        (some { name, isget := forGet, reqs := [requestFor devres []] })
  /-- Neither a command nor a resource. -/
  | unknown :
      (∀ cmd ∈ prof.deviceCommands, cmd.name ≠ name) →
      (∀ devres ∈ prof.deviceResources, devres.name = name →
        devres.properties.value.allows forGet = false) →
      Resolves prof name forGet none

/-! ## The table of a profile whose operations are named -/

/-- The entry of a command in one direction, without the check that its resources exist. -/
def infoFor (prof : DeviceProfile) (cmd : DeviceCommand) (forGet : Bool) : CmdInfo where
  name := cmd.name
  isget := forGet
  reqs := (cmd.ops forGet).filterMap fun ro =>
    (findDevResource prof.deviceResources ro.object).map (requestFor · ro.mappings)

/-- The entries of a command in one direction. -/
def commandInfos (prof : DeviceProfile) (cmd : DeviceCommand) (forGet : Bool) : List CmdInfo :=
  if cmd.ops forGet = [] then [] else [infoFor prof cmd forGet]

/-- The entries of a resource in one direction. -/
def resourceInfos (devres : DeviceResource) (forGet : Bool) : List CmdInfo :=
  if devres.properties.value.allows forGet then [infoForDevRes devres forGet] else []

/-- The whole table. -/
def commandTable (prof : DeviceProfile) : List CmdInfo :=
  (prof.deviceCommands.flatMap fun cmd => commandInfos prof cmd true ++ commandInfos prof cmd false) ++
    prof.deviceResources.flatMap fun devres =>
      if prof.deviceCommands.any fun dc => dc.name = devres.name then []
      else resourceInfos devres true ++ resourceInfos devres false

section Named

variable {prof : DeviceProfile}

theorem DeviceProfile.OpsNamed.find (h : prof.OpsNamed) {cmd : DeviceCommand}
    (hcmd : cmd ∈ prof.deviceCommands) (forGet : Bool) :
    ∀ ro ∈ cmd.ops forGet, ∃ devres, findDevResource prof.deviceResources ro.object = some devres := by
  intro ro hro
  have hmem : ro ∈ cmd.set ++ cmd.get := by
    cases forGet with
    | false => exact List.mem_append_left _ hro
    | true => exact List.mem_append_right _ hro
  obtain ⟨devres, hdevres, hname⟩ := h cmd hcmd ro hmem
  have hsome : (findDevResource prof.deviceResources ro.object).isSome := by
    rw [findDevResource, List.find?_isSome]
    exact ⟨devres, hdevres, by simpa using hname⟩
  exact Option.isSome_iff_exists.mp hsome

theorem infoForRes_eq {cmd : DeviceCommand} {forGet : Bool}
    (h : ∀ ro ∈ cmd.ops forGet,
      ∃ devres, findDevResource prof.deviceResources ro.object = some devres) :
    infoForRes prof cmd forGet = .ok (infoFor prof cmd forGet) := by
  have hreqs : (cmd.ops forGet).mapM (requestForOp prof) =
      .ok (infoFor prof cmd forGet).reqs := by
    simp only [infoFor]
    generalize cmd.ops forGet = ops at h
    induction ops with
    | nil => rfl
    | cons ro ops ih =>
      rw [List.forall_mem_cons] at h
      obtain ⟨⟨devres, hdevres⟩, hops⟩ := h
      rw [List.mapM_cons, requestForOp, hdevres, Checked.ok_bind, ih hops]
      simp [hdevres]
  rw [infoForRes, hreqs]
  rfl

/-- The requests of an entry are those of the operations, one for each. -/
theorem infoFor_requests {cmd : DeviceCommand} {forGet : Bool}
    (h : ∀ ro ∈ cmd.ops forGet,
      ∃ devres, findDevResource prof.deviceResources ro.object = some devres) :
    List.Forall₂ (IsRequest prof) (cmd.ops forGet) (infoFor prof cmd forGet).reqs := by
  simp only [infoFor]
  generalize cmd.ops forGet = ops at h
  induction ops with
  | nil => exact .nil
  | cons ro ops ih =>
    rw [List.forall_mem_cons] at h
    obtain ⟨⟨devres, hdevres⟩, hops⟩ := h
    rw [List.filterMap_cons, hdevres]
    exact .cons ⟨devres, hdevres, rfl, rfl, rfl, rfl, rfl⟩ (ih hops)

theorem appendCommands_eq (h : prof.OpsNamed) {cmds : List DeviceCommand}
    (hcmds : ∀ cmd ∈ cmds, cmd ∈ prof.deviceCommands) (table : List CmdInfo) :
    appendCommands prof cmds table =
      .ok (table ++ cmds.flatMap fun cmd =>
        commandInfos prof cmd true ++ commandInfos prof cmd false) := by
  have happend {cmd : DeviceCommand} (hcmd : cmd ∈ prof.deviceCommands) (forGet : Bool)
      (table : List CmdInfo) :
      appendInfo prof cmd forGet table = .ok (table ++ commandInfos prof cmd forGet) := by
    rw [appendInfo, commandInfos]
    split
    · rw [List.append_nil]
      rfl
    · rw [infoForRes_eq (h.find hcmd forGet)]
      rfl
  induction cmds generalizing table with
  | nil =>
    rw [List.flatMap_nil, List.append_nil]
    rfl
  | cons cmd cmds ih =>
    rw [List.forall_mem_cons] at hcmds
    rw [appendCommands, happend hcmds.1, Checked.ok_bind, happend hcmds.1, Checked.ok_bind,
      ih hcmds.2, List.flatMap_cons]
    simp only [List.append_assoc]

theorem appendResources_eq (list : List DeviceResource) (table : List CmdInfo) :
    appendResources prof list table =
      table ++ list.flatMap fun devres =>
        if prof.deviceCommands.any fun dc => dc.name = devres.name then []
        else resourceInfos devres true ++ resourceInfos devres false := by
  induction list generalizing table with
  | nil => rw [appendResources, List.flatMap_nil, List.append_nil]
  | cons devres list ih =>
    rw [appendResources, ih, List.flatMap_cons, ← List.append_assoc]
    congr 1
    simp only [resourceInfos, PropertyValue.allows, Bool.false_eq_true, if_false, if_true]
    split
    · rw [List.append_nil]
    · split <;> split <;> simp

/-- The table is built without following a NULL pointer. -/
theorem populateCmdInfo_eq (h : prof.OpsNamed) :
    populateCmdInfo prof = .ok { prof with cmdinfo := commandTable prof } := by
  rw [populateCmdInfo, appendCommands_eq h fun _ hcmd => hcmd, Checked.ok_bind, appendResources_eq]
  rfl

end Named

/-! ## Searching the table -/

section Search

variable (prof : DeviceProfile) (name : Text) (forGet : Bool)

/-- The loop condition of `edgex_deviceprofile_findcommand`. -/
abbrev matchesInfo (info : CmdInfo) : Bool := info.name = name ∧ forGet = info.isget

theorem find?_commandInfos (cmds : List DeviceCommand) :
    (cmds.flatMap fun cmd => commandInfos prof cmd true ++ commandInfos prof cmd false).find?
        (matchesInfo name forGet) =
      (cmds.find? fun cmd => cmd.name = name ∧ cmd.ops forGet ≠ []).map
        (infoFor prof · forGet) := by
  induction cmds with
  | nil => rfl
  | cons cmd cmds ih =>
    rw [List.flatMap_cons, List.find?_append, List.find?_append, ih, List.find?_cons]
    have hdir (dir : Bool) : (commandInfos prof cmd dir).find? (matchesInfo name forGet) =
        if (cmd.name = name ∧ cmd.ops forGet ≠ []) ∧ dir = forGet then
          some (infoFor prof cmd forGet) else none := by
      unfold commandInfos
      by_cases hd : dir = forGet
      · subst hd
        by_cases hops : cmd.ops dir = [] <;> by_cases hn : cmd.name = name <;>
          simp [infoFor, hops, hn]
      · have hd' : ¬ forGet = dir := fun heq => hd heq.symm
        by_cases hops : cmd.ops dir = [] <;> simp [infoFor, hops, hd, hd']
    rw [hdir, hdir]
    by_cases hcmd : cmd.name = name ∧ cmd.ops forGet ≠ []
    · cases forGet <;> simp [hcmd]
    · simp [hcmd]

theorem find?_resourceInfos (list : List DeviceResource) :
    (list.flatMap fun devres =>
        if prof.deviceCommands.any fun dc => dc.name = devres.name then []
        else resourceInfos devres true ++ resourceInfos devres false).find?
          (matchesInfo name forGet) =
      if prof.deviceCommands.any fun dc => dc.name = name then none
      else (list.find? fun devres =>
        devres.name = name ∧ devres.properties.value.allows forGet).map
          (infoForDevRes · forGet) := by
  induction list with
  | nil => simp
  | cons devres list ih =>
    rw [List.flatMap_cons, List.find?_append, ih, List.find?_cons]
    have hdir (dir : Bool) : (resourceInfos devres dir).find? (matchesInfo name forGet) =
        if (devres.name = name ∧ devres.properties.value.allows forGet) ∧ dir = forGet then
          some (infoForDevRes devres forGet) else none := by
      unfold resourceInfos
      by_cases hd : dir = forGet
      · subst hd
        by_cases hallow : devres.properties.value.allows dir <;>
          by_cases hn : devres.name = name <;> simp [infoForDevRes, hallow, hn]
      · have hd' : ¬ forGet = dir := fun heq => hd heq.symm
        by_cases hallow : devres.properties.value.allows dir <;>
          simp [infoForDevRes, hallow, hd, hd']
    by_cases hn : devres.name = name
    · subst hn
      by_cases hshadow : prof.deviceCommands.any fun dc => dc.name = devres.name
      · simp [hshadow]
      · rw [if_neg hshadow, if_neg hshadow, if_neg hshadow, List.find?_append, hdir, hdir]
        by_cases hallow : devres.properties.value.allows forGet
        · cases forGet <;> simp [hallow]
        · simp [hallow]
    · have hskip : (if prof.deviceCommands.any fun dc => dc.name = devres.name then []
          else resourceInfos devres true ++ resourceInfos devres false).find?
            (matchesInfo name forGet) = none := by
        split
        · rfl
        · rw [List.find?_append, hdir, hdir]
          simp [hn]
      rw [hskip]
      simp [hn]

variable {prof name forGet}

theorem found_command {cmd : DeviceCommand}
    (h : prof.deviceCommands.find? (fun cmd => cmd.name = name ∧ cmd.ops forGet ≠ []) = some cmd) :
    cmd ∈ prof.deviceCommands ∧ cmd.name = name ∧ cmd.ops forGet ≠ [] :=
  ⟨List.mem_of_find?_eq_some h, by simpa using List.find?_some h⟩

theorem found_resource {devres : DeviceResource}
    (h : prof.deviceResources.find? (fun devres =>
      devres.name = name ∧ devres.properties.value.allows forGet) = some devres) :
    devres ∈ prof.deviceResources ∧ devres.name = name ∧
      devres.properties.value.allows forGet = true :=
  ⟨List.mem_of_find?_eq_some h, by simpa using List.find?_some h⟩

variable (prof name forGet)

/-- The table answers as documented. -/
theorem find?_commandTable (h : prof.OpsNamed) :
    Resolves prof name forGet ((commandTable prof).find? (matchesInfo name forGet)) := by
  rw [commandTable, List.find?_append, find?_commandInfos, find?_resourceInfos]
  cases hcmd : prof.deviceCommands.find? fun cmd => cmd.name = name ∧ cmd.ops forGet ≠ [] with
  | some cmd =>
    obtain ⟨hmem, hname, -⟩ := found_command hcmd
    exact .command hcmd hname rfl (infoFor_requests (h.find hmem forGet))
  | none =>
    -- no command of the name has operations this way; a one-sided one still hides the resource
    have hempty : ∀ cmd ∈ prof.deviceCommands, cmd.name = name → cmd.ops forGet = [] := by
      simpa using hcmd
    rw [Option.map_none, Option.none_or]
    split
    · next hshadow => exact .shadowed (by simpa using hshadow) hempty
    · next hshadow =>
      have hnone : ∀ cmd ∈ prof.deviceCommands, cmd.name ≠ name := by simpa using hshadow
      cases hres : prof.deviceResources.find?
          fun devres => devres.name = name ∧ devres.properties.value.allows forGet with
      | some devres =>
        rw [Option.map_some, infoForDevRes, (found_resource hres).2.1]
        exact .resource hnone hres
      | none => exact .unknown hnone (by simpa using hres)

end Search

/-! ## Calls -/

/-- A call that searches the table of a profile. -/
inductive Lookup where
  | find (name : Text) (forGet : Bool)
  | exists (name : Text)
  deriving DecidableEq

/-- What it returns. -/
inductive Found where
  | command (info : Option CmdInfo)
  | exists (b : Bool)
  deriving DecidableEq

/-- One call. -/
def lookup (prof : DeviceProfile) : Lookup → Checked (Found × DeviceProfile)
  | .find name forGet => do
    let (info, prof) ← edgexDeviceprofileFindcommand name prof forGet
    return (.command info, prof)
  | .exists name => do
    let (b, prof) ← commandExists name prof
    return (.exists b, prof)

/-- Calls one after the other, on the same profile. -/
def lookups : DeviceProfile → List Lookup → Checked (List Found × DeviceProfile)
  | prof, [] => return ([], prof)
  | prof, q :: qs => do
    let (a, prof) ← lookup prof q
    let (as, prof) ← lookups prof qs
    return (a :: as, prof)

/-- The documented answer. -/
def Answers (prof : DeviceProfile) : Lookup → Found → Prop
  | .find name forGet, .command info => Resolves prof name forGet info
  | .exists name, .exists b => b = true ↔ ∃ forGet info, Resolves prof name forGet (some info)
  | _, _ => False

section Calls

variable {prof : DeviceProfile}

theorem IsRequest.unique {ro : ResourceOperation} {req req' : CmdRequest}
    (h : IsRequest prof ro req) (h' : IsRequest prof ro req') : req = req' := by
  obtain ⟨devres, hfind, hname, hattr, htype, hpval, hmap⟩ := h
  obtain ⟨devres', hfind', hname', hattr', htype', hpval', hmap'⟩ := h'
  cases hfind.symm.trans hfind'
  obtain ⟨⟨⟨resname, type⟩, attributes⟩, pval, map⟩ := req
  obtain ⟨⟨⟨resname', type'⟩, attributes'⟩, pval', map'⟩ := req'
  simp_all

theorem requests_unique {ops : List ResourceOperation} {reqs reqs' : List CmdRequest}
    (h : List.Forall₂ (IsRequest prof) ops reqs)
    (h' : List.Forall₂ (IsRequest prof) ops reqs') : reqs = reqs' := by
  induction h generalizing reqs' with
  | nil =>
    cases h'
    rfl
  | cons hreq _ ih =>
    cases h' with
    | cons hreq' htail' => rw [hreq.unique hreq', ih htail']

/-- The documentation leaves no choice. -/
theorem Resolves.unique {name : Text} {forGet : Bool} {r r' : Option CmdInfo}
    (h : Resolves prof name forGet r) (h' : Resolves prof name forGet r') : r = r' := by
  -- off the diagonal the two rules contradict each other, or both say that nothing is found
  cases h with
  | command hfind hname hdir hops =>
    obtain ⟨hmem, hcmd, hne⟩ := found_command hfind
    cases h' with
    | command hfind' hname' hdir' hops' =>
      cases hfind.symm.trans hfind'
      rename_i info _ info'
      obtain ⟨n, d, reqs⟩ := info
      obtain ⟨n', d', reqs'⟩ := info'
      cases requests_unique hops hops'
      cases hname.trans hname'.symm
      cases hdir.trans hdir'.symm
      rfl
    | shadowed _ hempty => exact absurd (hempty _ hmem hcmd) hne
    | resource hnone _ => exact absurd hcmd (hnone _ hmem)
    | unknown hnone _ => exact absurd hcmd (hnone _ hmem)
  | shadowed hsome hempty =>
    obtain ⟨cmd, hcmd, hname⟩ := hsome
    cases h' with
    | command hfind' _ _ _ =>
      obtain ⟨hmem, hcmd', hne⟩ := found_command hfind'
      exact absurd (hempty _ hmem hcmd') hne
    | shadowed _ _ => rfl
    | resource hnone _ => exact absurd hname (hnone _ hcmd)
    | unknown _ _ => rfl
  | resource hnone hfind =>
    cases h' with
    | command hfind' _ _ _ =>
      obtain ⟨hmem, hcmd, -⟩ := found_command hfind'
      exact absurd hcmd (hnone _ hmem)
    | shadowed hsome' _ =>
      obtain ⟨cmd, hcmd, hname⟩ := hsome'
      exact absurd hname (hnone _ hcmd)
    | resource _ hfind' =>
      cases hfind.symm.trans hfind'
      rfl
    | unknown _ hrefuse =>
      obtain ⟨hmem, hname, hallow⟩ := found_resource hfind
      rw [hrefuse _ hmem hname] at hallow
      cases hallow
  | unknown hnone hrefuse =>
    cases h' with
    | command hfind' _ _ _ =>
      obtain ⟨hmem, hcmd, -⟩ := found_command hfind'
      exact absurd hcmd (hnone _ hmem)
    | shadowed _ _ => rfl
    | resource _ hfind' =>
      obtain ⟨hmem, hname, hallow⟩ := found_resource hfind'
      rw [hrefuse _ hmem hname] at hallow
      cases hallow
    | unknown _ _ => rfl

/-- The table is not built yet, or as the first call builds it. -/
def Cached (prof cached : DeviceProfile) : Prop :=
  cached = prof ∨ cached = { prof with cmdinfo := commandTable prof }

theorem ensureCmdInfo_eq (h : prof.OpsNamed) (hfresh : prof.cmdinfo = [])
    {cached : DeviceProfile} (hcached : Cached prof cached) :
    ensureCmdInfo cached = .ok { prof with cmdinfo := commandTable prof } := by
  rcases hcached with rfl | rfl
  · rw [ensureCmdInfo, if_pos hfresh, populateCmdInfo_eq h]
  · unfold ensureCmdInfo
    split
    · exact populateCmdInfo_eq h
    · rfl

/-- A call on the profile answers as documented, whether or not the table was built before. -/
theorem lookup_eq (h : prof.OpsNamed) (hfresh : prof.cmdinfo = []) (q : Lookup) :
    ∃ a, Answers prof q a ∧ ∀ cached, Cached prof cached →
      lookup cached q = .ok (a, { prof with cmdinfo := commandTable prof }) := by
  cases q with
  | find name forGet =>
    refine ⟨.command _, find?_commandTable prof name forGet h, ?_⟩
    intro cached hcached
    rw [lookup, edgexDeviceprofileFindcommand, ensureCmdInfo_eq h hfresh hcached]
    rfl
  | «exists» name =>
    refine ⟨.exists ((commandTable prof).any fun info => info.name = name), ?_, ?_⟩
    · rw [Answers, List.any_eq_true]
      constructor
      · rintro ⟨info, hmem, hname⟩
        have hsome : ((commandTable prof).find? (matchesInfo name info.isget)).isSome := by
          rw [List.find?_isSome]
          exact ⟨info, hmem, by simpa [matchesInfo] using hname⟩
        obtain ⟨found, hfound⟩ := Option.isSome_iff_exists.mp hsome
        exact ⟨info.isget, found, hfound ▸ find?_commandTable prof name info.isget h⟩
      · rintro ⟨forGet, info, hres⟩
        have hfind := (find?_commandTable prof name forGet h).unique hres
        have hmatch := List.find?_some hfind
        exact ⟨info, List.mem_of_find?_eq_some hfind, by simpa [matchesInfo] using (by
          simpa [matchesInfo] using hmatch : info.name = name ∧ forGet = info.isget).1⟩
    · intro cached hcached
      rw [lookup, commandExists, ensureCmdInfo_eq h hfresh hcached]
      rfl

/-- Every call on a profile answers as documented, and as it would on the profile as it was before
the first call. -/
theorem lookups_answer (h : prof.OpsNamed) (hfresh : prof.cmdinfo = []) (qs : List Lookup) :
    ∃ as cached, lookups prof qs = .ok (as, cached) ∧
      List.Forall₂ (fun q a => Answers prof q a ∧ ∃ next, lookup prof q = .ok (a, next)) qs as := by
  have hrun : ∀ cached, Cached prof cached → ∃ as next, lookups cached qs = .ok (as, next) ∧
      List.Forall₂ (fun q a => Answers prof q a ∧ ∃ next, lookup prof q = .ok (a, next)) qs as := by
    induction qs with
    | nil => exact fun cached _ => ⟨[], cached, rfl, .nil⟩
    | cons q qs ih =>
      intro cached hcached
      obtain ⟨a, ha, hlookup⟩ := lookup_eq h hfresh q
      obtain ⟨as, next, has, hall⟩ := ih _ (.inr rfl)
      refine ⟨a :: as, next, ?_, .cons ⟨ha, _, hlookup prof (.inl rfl)⟩ hall⟩
      rw [lookups, hlookup cached hcached, Checked.ok_bind]
      simp only [has, Checked.ok_bind]
      rfl
  exact hrun prof (.inl rfl)

/-! ### A plug -/

/-- A resource that is read and written. -/
def plugResource (name : Text) (type : PropertyType) : DeviceResource where
  description := []
  name := name
  tag := []
  properties :=
    { value :=
        { type, readable := true, writable := true, minimum := [], maximum := []
          defaultvalue := [], lsb := [], mask := none, shift := none, scale := none
          offset := none, base := none, assertion := [], precision := [], mediaType := []
          floatAsBinary := true }
      units := ⟨[], [], []⟩ }
  attributes := []

/-- A plug that is switched and metered. Its command `Switch` only writes, and hides the resource of
that name. -/
def plugProfile : DeviceProfile where
  id := lit "p2"
  name := lit "Plug"
  description := []
  created := 0
  modified := 0
  origin := 0
  manufacturer := []
  model := []
  labels := []
  deviceResources := [plugResource (lit "Switch") .bool, plugResource (lit "Power") .uint16]
  deviceCommands :=
    [⟨lit "Switch", [⟨[], [], lit "Switch", [], [], [], [], [(lit "on", lit "true")]⟩], []⟩]
  cmdinfo := []

/-- The command is found, the read is hidden by it, and the meter is found without a command. -/
theorem plugProfile_lookups :
    ∃ as cached,
      lookups plugProfile
        [.find (lit "Switch") false, .find (lit "Switch") true, .find (lit "Power") true,
          .exists (lit "Switch")] = .ok (as, cached) ∧
      List.Forall₂ (fun q a => Answers plugProfile q a ∧
          ∃ next, lookup plugProfile q = .ok (a, next))
        [.find (lit "Switch") false, .find (lit "Switch") true, .find (lit "Power") true,
          .exists (lit "Switch")] as :=
  lookups_answer (by unfold DeviceProfile.OpsNamed; decide) rfl _

end Calls

end Zigbee
