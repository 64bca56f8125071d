import KzHome.Lib.Dict
import KzHome.Lib.Restart

/-!
# KzHome.DemoUpgrade

The upgrade of a prepared demo: `check`, `backup` and `apply_upgrade`.

An upgrade is a procedure over a `World` of files, images, containers and a database. It
can be interrupted between any two of its operations; the next run loads the metadata
again and starts from its check. What Docker, Compose, Alembic and the HTTP endpoints do is
a `Site`, together with the sources and the paths that stay the same for all runs.

`check` admits the revisions up to `0007_control_authority`, and the migration leads to
`0008_provisioning_sessions`. **No upgrade resumes** (`never_resumes`): once the database is
migrated, every run is refused, and until then none is.
-/

namespace KzHome

open Session Restart

namespace DemoUpgrade

/-! ### The installation -/

/-- What a run can fail with. -/
inductive Failure
  /-- `DemoError` -/
  | demo (code : String)
  /-- `ValueError` -/
  | value (text : String)
  /-- `KeyError` -/
  | key (name : String)
  /-- `FileNotFoundError` -/
  | missing (name : String)
  /-- `CalledProcessError` -/
  | command
  deriving DecidableEq, Repr

abbrev Env := Dict String String

/-- `env.update` -/
def update (env other : Env) : Env := other.entries.foldl (fun env e => env.set e.1 e.2) env

/-- `source_id` -/
structure Identity where
  coreTree : String
  webRevision : String
  deriving DecidableEq, Repr

/-- `state.json` -/
structure Installed where
  version : Nat
  project : String
  env : Env
  applicationPassword : Option String
  webSource : String
  webRevision : String
  upgradeIdentity : Option Identity

inductive Phase
  | built
  | backedUp
  deriving DecidableEq, Repr

/-- `upgrade.pending.json` -/
structure Plan where
  project : String
  identity : Identity
  target : Installed
  previous : Installed
  phase : Phase
  images : List (String × String)
  backup : Option String
  priv : Option (List (String × String))

/-- What is in a file. -/
inductive Content
  | text (text : String)
  | state (state : Installed)
  | env (env : Env)

structure Manifest where
  project : String
  files : List (String × String)

/-- A directory below `backups`. -/
structure Backup where
  files : Dict String Content
  manifest : Option Manifest

structure Mount where
  volume : Bool
  name : String
  destination : String
  deriving DecidableEq, Repr

/-- `docker inspect` of a container. -/
structure Container where
  project : String
  service : String
  env : Env
  image : String
  running : Bool
  mounts : List Mount

structure Database where
  /-- `alembic_version` -/
  revision : String
  rows : String
  deriving DecidableEq, Repr

/-- The directory of the demo, its images, its containers and its database. -/
structure World where
  /-- The private inputs. -/
  files : Dict String String
  /-- Names of files that are there, no links, and inside the directory. -/
  regular : List String
  state : Installed
  composeEnv : Env
  pending : Option Plan
  /-- `upgrade-history` -/
  history : List Plan
  contexts : List String
  backups : Dict String Backup
  /-- The tags of the images that were built. -/
  images : Dict String String
  containers : List Container
  database : Database
  /-- How many identifiers were drawn. -/
  drawn : Nat

/-! ### The surroundings -/

/-- The Web checkout. -/
structure Checkout where
  isRoot : Bool
  isDir : Bool
  files : List String
  isGitRoot : Bool
  dirty : Bool
  tracked : List String

/-- A volume or a network of `docker compose config`. -/
structure Resource where
  name : String
  external : Bool

structure Service where
  environment : Env
  image : String
  /-- The host addresses of the published ports. -/
  ports : List String
  containerName : Option String
  privileged : Bool

/-- `docker compose config` -/
structure Config where
  volumes : Dict String Resource
  networks : Dict String Resource
  services : Dict String Service

/-- `Demo` after `load`. -/
structure Handle where
  state : Installed
  env : Env

/-- What stays the same for all runs, and what the commands do. -/
structure Site where
  project : String
  path : String
  environ : Env
  web : Checkout
  webSource : String
  identity : Identity
  resolve : String → String
  config : (arm64 : Bool) → (env composeEnv : Env) → Config
  /-- The label of a volume, if there is the volume. -/
  volumeLabel : String → Option (Option String)
  /-- The images of the infrastructure. -/
  pulled : Dict String String
  /-- The images after `docker compose build core proxy` -/
  build : Env → Dict String String → Dict String String
  /-- The containers after `docker compose stop proxy core` -/
  stop : List Container → List Container
  uuid : Nat → String
  sha256 : Content → String
  /-- What `pg_dump` writes, if it succeeds. -/
  pgDump : Database → Option String
  /-- `pg_restore --list` succeeds. -/
  restorable : Content → Bool
  /-- `alembic upgrade head` -/
  migrate : Database → Database
  /-- The containers after `docker compose up -d --no-deps --pull never --wait core proxy` -/
  up : World → Handle → List Container
  /-- The Web and the Core answer with 200. -/
  serves : World → Bool

/-- The sole revision without a successor below `alembic/versions`. -/
def head : String := "0008_provisioning_sessions"

/-- The revisions that `check` admits. -/
def admitted : List String :=
  ["0005_device_onboarding", "0006_command_lifecycle", "0007_control_authority"]

/-- `PRIVATE` -/
def privateNames : List String :=
  ["user.json", "simulation.json", "proxy.conf", "mqtt/ca.crt", "mqtt/ca.key",
    "mqtt/server.crt", "mqtt/server.key", "mqtt/passwords", "mqtt/acl"]

/-! ### The check -/

/-- `[a-f0-9]{64}` -/
def isHex64 (s : String) : Bool :=
  s.toList.length = 64 && s.toList.all fun c => c.isDigit || ('a' ≤ c && c ≤ 'f')

/-- Raise a failure unless a condition holds. -/
def ensure (c : Bool) (e : Failure) : Except Failure Unit := if c then .ok () else .error e

/-- A value that has to be there. -/
def found {α : Type} (e : Failure) : Option α → Except Failure α
  | some a => .ok a
  | none => .error e

namespace Site

variable (site : Site)

/-- `Demo.load` -/
def load (w : World) : Except Failure Handle := do
  ensure (w.state.project = site.project && w.state.version = 14)
    (.value "Wrong demo installation metadata")
  let env := (update site.environ w.state.env).set "COMPOSE_PROJECT_NAME" site.project
  return ⟨w.state, (env.pop "COMPOSE_FILE").pop "COMPOSE_PROFILES"⟩

/-- `docker compose config` with the files of `argv`. -/
def configOf (w : World) (demo : Handle) : Except Failure Config := do
  let platform ← found (.key "DEMO_PLATFORM") (demo.state.env.get? "DEMO_PLATFORM")
  return site.config (platform = "linux/arm64") demo.env w.composeEnv

/-- `Demo.guard` -/
def guard (w : World) (demo : Handle) : Except Failure Unit := do
  let config ← site.configOf w demo
  config.volumes.entries.forM fun e => do
    ensure (!e.2.external && e.2.name = site.project ++ "_" ++ e.1)
      (.value "Demo volume isolation failed")
    ensure ((site.volumeLabel (site.project ++ "_" ++ e.1)).all (· = some site.project))
      (.value "Existing volume is not owned by this demo")
  ["postgres", "mosquitto"].forM fun name => do
    let service ← found (.key name) (config.services.get? name)
    ensure service.ports.isEmpty (.value "Database/broker must not be published")
  ["core", "proxy"].forM fun name => do
    let service ← found (.key name) (config.services.get? name)
    ensure (service.ports.all (· = "127.0.0.1")) (.value "Demo must remain loopback-only")

/-- `check_web` -/
def checkWeb : Except Failure Unit := do
  let required := ["package.json", "package-lock.json", "index.html"]
  ensure (!site.web.isRoot && site.web.isDir) (.demo "web-checkout")
  ensure (required.all fun name => name ∈ site.web.files) (.demo "web-files")
  ensure site.web.isGitRoot (.demo "web-checkout")
  ensure (!site.web.dirty) (.demo "web-dirty")
  ensure (required.all fun name => name ∈ site.web.tracked) (.demo "web-files")

/-- A mount of an infrastructure container. -/
def mountAllowed (service : String) (mount : Mount) : Bool :=
  !mount.volume || (site.project ++ "_").toList.isPrefixOf mount.name.toList ||
    service = "mosquitto" && mount.destination = "/mosquitto/log" && isHex64 mount.name

/-- The containers of a service. -/
def ps (containers : List Container) (service : String) : List Container :=
  containers.filter fun c => c.project = site.project && c.service = service

/-- What `check` asks of the container of a service. -/
def checkContainer (config : Config) (demo : Handle) (containers : List Container)
    (service : String) : Except Failure Unit := do
  match site.ps containers service with
  | [item] => do
    ensure (service ≠ "core" || ["DATABASE_URL", "AUTH_JWT_SECRET", "MQTT_PASSWORD"].all fun key =>
      item.env.get? key = demo.state.env.get? key) (.demo "upgrade")
    ensure (item.project = site.project && item.service = service) (.demo "upgrade")
    if service = "postgres" || service = "mosquitto" then do
      let entry ← found (.key service) (config.services.get? service)
      let image ← found .command (site.pulled.get? entry.image)
      ensure (item.image = image && item.running) (.demo "upgrade")
      ensure (item.mounts.all (site.mountAllowed service)) (.demo "upgrade")
    else return ()
  | _ => .error (.demo "upgrade")

/-- `check` -/
def check (w : World) (demo : Handle) : Except Failure Identity := do
  site.guard w demo
  site.checkWeb
  ensure ("src/data/core/permissions.ts" ∈ site.web.files &&
    "src/data/core/relay-control.ts" ∈ site.web.files) (.demo "upgrade")
  ensure ((privateNames ++ ["state.json", "compose.env"]).all fun name => name ∈ w.regular)
    (.demo "upgrade")
  let config ← site.configOf w demo
  let password := demo.state.applicationPassword.getD ""
  ensure (isHex64 password) (.demo "upgrade")
  let core ← found (.key "core") (config.services.get? "core")
  ensure (core.environment.get? "DATABASE_URL" =
      some ("postgresql+psycopg://kzhome:" ++ password ++ "@postgres:5432/kzhome") &&
    core.environment.get? "MQTT_TLS_ENABLED" = some "true" &&
    core.environment.get? "MQTT_HOST" = some "mosquitto" &&
    core.environment.get? "APP_ENV" = some "production") (.demo "upgrade")
  let inputs ← found (.key "DEMO_INPUT_DIR") (demo.state.env.get? "DEMO_INPUT_DIR")
  ensure (site.resolve inputs = site.resolve site.path) (.demo "upgrade")
  ensure (config.services.entries.length = 4 &&
    ["core", "proxy", "postgres", "mosquitto"].all fun name => (config.services.get? name).isSome)
    (.demo "upgrade")
  ensure (config.networks.entries.all fun e =>
    !e.2.external && e.2.name = site.project ++ "_" ++ e.1) (.demo "upgrade")
  ensure (config.services.entries.all fun e =>
    e.2.containerName.isNone && !e.2.privileged) (.demo "upgrade")
  ["core", "proxy", "postgres", "mosquitto"].forM (site.checkContainer config demo w.containers)
  ensure (w.database.revision ∈ admitted) (.demo "upgrade")
  return site.identity

/-- The start of a run: `load` and `guard` of `main`, and the check of `apply_upgrade`. -/
def enter (w : World) : Except Failure (Handle × Identity) := do
  let demo ← site.load w
  site.guard w demo
  let identity ← site.check w demo
  return (demo, identity)

end Site

/-! ### The operations -/

inductive Op
  /-- Files are read, containers and images are inspected. -/
  | look
  /-- `uuid4().hex` -/
  | draw
  /-- `stage_web` -/
  | stage (context : String)
  /-- `docker compose build core proxy` -/
  | build (env : Env)
  /-- `atomic(pending, …)` -/
  | savePending (plan : Plan)
  | makeBackup (directory : String)
  /-- `docker compose stop proxy core` -/
  | stop
  /-- `shutil.copyfile` into a backup -/
  | copy (directory name : String)
  /-- `pg_dump` into a backup -/
  | dump (directory : String)
  /-- `pg_restore --list` of the dump -/
  | listing (directory : String)
  | writeManifest (directory : String) (manifest : Manifest)
  /-- `docker compose run … alembic upgrade head` -/
  | migrate
  /-- `atomic(state.json, …)` -/
  | saveState (state : Installed)
  /-- `atomic(compose.env, …)` -/
  | saveComposeEnv (env : Env)
  /-- `docker compose up -d --no-deps --pull never --wait core proxy` -/
  | up (demo : Handle)
  /-- The HTTP requests of `verify` -/
  | request
  /-- `os.replace(pending, history / …)` -/
  | archive (name : String)

/-- The operations, with what they answer. -/
def interface : Interface where
  Op := Op
  Ans
    | .look => World
    | .draw => String
    | .copy _ _ | .dump _ | .listing _ | .request => Bool
    | _ => Unit

abbrev Script (α : Type) := Prog interface Failure α

def look : Script World := .call .look .ret
def draw : Script String := .call .draw .ret
def stage (context : String) : Script Unit := .call (.stage context) .ret
def build (env : Env) : Script Unit := .call (.build env) .ret
def savePending (plan : Plan) : Script Unit := .call (.savePending plan) .ret
def makeBackup (directory : String) : Script Unit := .call (.makeBackup directory) .ret
def stop : Script Unit := .call .stop .ret
def copy (directory name : String) : Script Bool := .call (.copy directory name) .ret
def dump (directory : String) : Script Bool := .call (.dump directory) .ret
def listing (directory : String) : Script Bool := .call (.listing directory) .ret
def writeManifest (directory : String) (manifest : Manifest) : Script Unit :=
  .call (.writeManifest directory manifest) .ret
def migrate : Script Unit := .call .migrate .ret
def saveState (state : Installed) : Script Unit := .call (.saveState state) .ret
def saveComposeEnv (env : Env) : Script Unit := .call (.saveComposeEnv env) .ret
def up (demo : Handle) : Script Unit := .call (.up demo) .ret
def request : Script Bool := .call .request .ret
def archive (name : String) : Script Unit := .call (.archive name) .ret

/-- What a file of the demo holds. -/
def World.content (w : World) (name : String) : Option Content :=
  if name = "state.json" then some (.state w.state)
  else if name = "compose.env" then some (.env w.composeEnv)
  else (w.files.get? name).map .text

/-- A container of the application that was stopped. -/
def Container.stopped (c : Container) : Container :=
  if c.service = "core" ∨ c.service = "proxy" then { c with running := false } else c

/-- Another file in a backup. -/
def Backup.add (name : String) (content : Content) (b : Backup) : Backup :=
  { b with files := b.files.set name content }

namespace Site

variable (site : Site)

/-- What the operations do. -/
def perform : Performer interface World := fun w op =>
  match op with
  | .look => (w, w)
  | .draw => (site.uuid w.drawn, { w with drawn := w.drawn + 1 })
  | .stage context => ((), { w with contexts := context :: w.contexts })
  | .build env => ((), { w with images := site.build env w.images })
  | .savePending plan => ((), { w with pending := some plan })
  | .makeBackup directory => ((), { w with backups := w.backups.set directory ⟨.empty, none⟩ })
  | .stop => ((), { w with containers := site.stop w.containers })
  | .copy directory name =>
    match w.content name with
    | some content =>
      (true, { w with backups := w.backups.modify directory (Backup.add name content) })
    | none => (false, w)
  | .dump directory =>
    match site.pgDump w.database with
    | some text => (!text.isEmpty, { w with
        backups := w.backups.modify directory (Backup.add "database.dump" (.text text)) })
    | none => (false, w)
  | .listing directory =>
    (((w.backups.get? directory).bind fun b => b.files.get? "database.dump").any site.restorable, w)
  | .writeManifest directory manifest =>
    ((), { w with backups := w.backups.modify directory fun b => { b with
      manifest := some manifest } })
  | .migrate => ((), { w with database := site.migrate w.database })
  | .saveState state => ((), { w with state, regular := "state.json" :: w.regular })
  | .saveComposeEnv env =>
    ((), { w with composeEnv := env, regular := "compose.env" :: w.regular })
  | .up demo => ((), { w with containers := site.up w demo })
  | .request => (site.serves w, w)
  | .archive _ => ((), { w with pending := none, history := w.pending.toList ++ w.history })

/-! ### The upgrade -/

/-- `image_ids` -/
def imageIds (w : World) (env : Env) : Except Failure (List (String × String)) :=
  ["DEMO_CORE_IMAGE", "DEMO_WEB_IMAGE"].mapM fun key => do
    let tag ← found (.key key) (env.get? key)
    let id ← found .command (w.images.get? tag)
    return (tag, id)

/-- `verify` -/
def verify (demo : Handle) : Script Unit := do
  let w ← look
  Prog.lift (site.guard w demo)
  let served ← request
  Prog.lift (ensure served (.value "Demo HTTP verification failed"))

/-- The files of `backup`, one after the other. -/
def copyAll (directory : String) : List String → Script Unit
  | [] => return ()
  | name :: names => do
    let copied ← copy directory name
    Prog.lift (ensure copied (.missing name))
    copyAll directory names

/-- `backup` with `restart=False`. -/
def backup (demo : Handle) : Script String := do
  let w ← look
  Prog.lift (site.guard w demo)
  let suffix ← draw
  let directory := site.path ++ "/backups/" ++ suffix
  makeBackup directory
  DemoUpgrade.stop
  copyAll directory (privateNames ++ ["state.json", "compose.env"])
  let dumped ← dump directory
  Prog.lift (ensure dumped (.demo "upgrade"))
  let listed ← listing directory
  Prog.lift (ensure listed (.demo "upgrade"))
  let w ← look
  let files := ((w.backups.get? directory).map (·.files.entries)).getD []
  writeManifest directory ⟨site.project, files.map fun e => (e.1, site.sha256 e.2)⟩
  return directory

/-- The digests of the private inputs. -/
def privateDigests (w : World) : Except Failure (List (String × String)) :=
  privateNames.mapM fun name => do
    let text ← found (.missing name) (w.files.get? name)
    return (name, site.sha256 (.text text))

/-- The metadata after an upgrade. -/
def target (previous : Installed) (suffix : String) : Installed :=
  let core := "kz-home-core:" ++ site.project ++ "-upgrade-" ++ suffix
  { previous with
    webRevision := site.identity.webRevision
    webSource := site.webSource
    upgradeIdentity := some site.identity
    env := (((previous.env.set "DEMO_WEB_CONTEXT" (site.path ++ "/web-upgrade-" ++ suffix)).set
      "DEMO_CORE_IMAGE" core).set "DEMO_WEB_IMAGE"
        ("kz-home-web:" ++ site.project ++ "-upgrade-" ++ suffix)).set "CORE_ARM64_IMAGE" core }

/-- A new plan: nothing that is installed changes yet. -/
def plan (demo : Handle) : Script Plan := do
  let suffix ← draw
  stage (site.path ++ "/web-upgrade-" ++ suffix)
  let target := site.target demo.state suffix
  DemoUpgrade.build (update demo.env target.env)
  let w ← look
  let images ← Prog.lift (imageIds w target.env)
  let plan : Plan := ⟨site.project, site.identity, target, demo.state, .built, images, none, none⟩
  savePending plan
  return plan

/-- The backup, if the plan has none yet. -/
def backedUp (plan : Plan) : Script Plan :=
  match plan.phase with
  | .backedUp => return plan
  | .built => do
    let w ← look
    let demo ← Prog.lift (site.load w)
    let directory ← site.backup demo
    let w ← look
    let digests ← Prog.lift (site.privateDigests w)
    let plan := { plan with phase := .backedUp, backup := some directory, priv := some digests }
    savePending plan
    return plan

/-- The backup and the private inputs are as they were recorded. -/
def checkBackup (w : World) (plan : Plan) : Except Failure Unit := do
  let directory ← found (.key "backup") plan.backup
  ensure ((site.path ++ "/backups/").toList.isPrefixOf directory.toList) (.demo "upgrade")
  let manifest ← found (.missing "manifest.json")
    ((w.backups.get? directory).bind (·.manifest))
  ensure (manifest.project = site.project && manifest.files.all fun e =>
    ((w.backups.get? directory).bind fun b => b.files.get? e.1).map site.sha256 = some e.2)
    (.demo "upgrade")
  let digests ← found (.key "private") plan.priv
  ensure (digests.all fun e =>
    (w.files.get? e.1).map (fun text => site.sha256 (.text text)) = some e.2) (.demo "upgrade")

/-- From the migration on. -/
def switchOver (plan : Plan) : Script Unit := do
  DemoUpgrade.stop
  DemoUpgrade.migrate
  saveState plan.target
  saveComposeEnv plan.target.env
  let w ← look
  let demo ← Prog.lift (site.load w)
  DemoUpgrade.up demo
  site.verify demo
  let name ← draw
  archive name

/-- A run of `apply_upgrade`. -/
def applyUpgrade : Script Unit := do
  let w ← look
  let (demo, identity) ← Prog.lift (site.enter w)
  let proceed (plan : Plan) : Script Unit := do
    let w ← look
    let images ← Prog.lift (imageIds w plan.target.env)
    Prog.lift (ensure (images = plan.images) (.demo "upgrade"))
    let plan ← site.backedUp plan
    let w ← look
    Prog.lift (site.checkBackup w plan)
    site.switchOver plan
  match w.pending with
  | some plan => do
    Prog.lift (ensure (plan.project = site.project && plan.identity = identity) (.demo "upgrade"))
    proceed plan
  | none =>
    if demo.state.upgradeIdentity = some identity then site.verify demo
    else do
      let plan ← site.plan demo
      proceed plan

end Site

/-! ### What resuming means -/

section Resumption

variable (site : Site)

/-- The world after interrupted runs. -/
def after (w : World) (cuts : List Nat) : World :=
  attempts site.perform site.applyUpgrade w cuts

/-- A backup whose files are as its manifest says, with a dump of a database. -/
def Verified (b : Backup) (db : Database) : Prop :=
  ∃ manifest, b.manifest = some manifest ∧ manifest.project = site.project ∧
    (∀ e ∈ manifest.files, (b.files.get? e.1).map site.sha256 = some e.2) ∧
    (b.files.get? "database.dump") = (site.pgDump db).map .text

/-- An upgrade that is interrupted at `cuts` resumes: every run passes its check, the last
one ends well, and a further one does nothing. -/
structure Resumes (start : World) (cuts : List Nat) : Prop where
  passes : ∀ before, before <+: cuts → ∃ r, site.enter (after site start before) = .ok r
  completes : ∃ last, finish site.perform site.applyUpgrade (after site start cuts) =
      (.ok (), last) ∧
    last.database.revision = head ∧ last.pending = none ∧ last.files = start.files ∧
    (∃ plan ∈ last.history, last.state = plan.target ∧
      ∃ directory b, plan.backup = some directory ∧ last.backups.get? directory = some b ∧
        Verified site b start.database) ∧
    finish site.perform site.applyUpgrade last = (.ok (), last)

end Resumption

/-! ### Worlds before and after the migration -/

/-- Nothing that the check reads has changed. -/
structure Unmigrated (start w : World) : Prop where
  state : w.state = start.state
  composeEnv : w.composeEnv = start.composeEnv
  regular : w.regular = start.regular
  database : w.database = start.database
  containers : w.containers.map Container.stopped = start.containers.map Container.stopped

theorem Container.stopped_of_ne {c : Container} (h : ¬ (c.service = "core" ∨ c.service = "proxy")) :
    c.stopped = c := if_neg h

theorem Container.stopped_of_eq {c : Container} (h : c.service = "core" ∨ c.service = "proxy") :
    c.stopped = { c with running := false } := if_pos h

@[simp] theorem Container.stopped_service (c : Container) : c.stopped.service = c.service := by
  unfold Container.stopped
  split <;> rfl

@[simp] theorem Container.stopped_project (c : Container) : c.stopped.project = c.project := by
  unfold Container.stopped
  split <;> rfl

section Check

variable {site : Site}

/-- The check does not see whether the application runs. -/
theorem checkContainer_stopped (config : Config) (demo : Handle) (containers : List Container)
    (service : String) :
    site.checkContainer config demo (containers.map Container.stopped) service =
      site.checkContainer config demo containers service := by
  have hps : site.ps (containers.map Container.stopped) service =
      (site.ps containers service).map Container.stopped := by
    rw [Site.ps, Site.ps, List.filter_map]
    refine congrArg _ (List.filter_congr fun c _ => ?_)
    simp only [Function.comp, Container.stopped_project, Container.stopped_service]
  rw [Site.checkContainer, Site.checkContainer, hps]
  by_cases happlication : service = "core" ∨ service = "proxy"
  · -- what is asked of the application does not concern whether it runs
    have hinfra : (service = "postgres" || service = "mosquitto") = false := by
      obtain rfl | rfl := happlication <;> decide
    match hlist : site.ps containers service with
    | [] => rfl
    | [item] =>
        have hitem : item ∈ site.ps containers service := hlist ▸ List.mem_singleton_self item
        have hservice : item.service = service := by
          simpa using (Bool.and_eq_true_iff.mp (List.mem_filter.mp hitem).2).2
        rw [List.map_singleton, Container.stopped_of_eq (hservice ▸ happlication)]
        simp only [hinfra]
        rfl
    | _ :: _ :: _ => rfl
  · have hsame : (site.ps containers service).map Container.stopped =
        site.ps containers service := by
      refine (List.map_congr_left fun c hc => Container.stopped_of_ne ?_).trans (List.map_id _)
      have hservice : c.service = service := by
        simpa using (Bool.and_eq_true_iff.mp (List.mem_filter.mp hc).2).2
      rwa [hservice]
    rw [hsame]

theorem enter_congr {start w : World} (h : Unmigrated start w) :
    site.enter w = site.enter start := by
  have hload : site.load w = site.load start := by rw [Site.load, Site.load, h.state]
  have hconfig : ∀ demo, site.configOf w demo = site.configOf start demo := by
    intro demo
    rw [Site.configOf, Site.configOf, h.composeEnv]
  have hguard : ∀ demo, site.guard w demo = site.guard start demo := by
    intro demo
    rw [Site.guard, Site.guard, hconfig]
  have hcontainers : ∀ config demo, site.checkContainer config demo w.containers =
      site.checkContainer config demo start.containers := by
    intro config demo
    funext service
    rw [← checkContainer_stopped config demo w.containers, h.containers, checkContainer_stopped]
  have hcheck : ∀ demo, site.check w demo = site.check start demo := by
    intro demo
    simp only [Site.check, hguard, hconfig, hcontainers, h.regular, h.database]
  simp only [Site.enter, hload, hguard, hcheck]

theorem bind_ok {α β : Type} {x : Except Failure α} {f : α → Except Failure β} {b : β}
    (h : (x >>= f) = .ok b) : ∃ a, x = .ok a ∧ f a = .ok b := by
  cases x with
  | error e => cases h
  | ok a => exact ⟨a, rfl, h⟩

theorem ensure_ok {c : Bool} {e : Failure} {u : Unit} (h : ensure c e = .ok u) : c = true := by
  cases c with
  | false => cases h
  | true => rfl

/-- The last condition of the check is the revision. -/
theorem revision_of_check {w : World} {demo : Handle} {identity : Identity}
    (h : site.check w demo = .ok identity) : w.database.revision ∈ admitted := by
  iterate 14 obtain ⟨_, -, h⟩ := bind_ok h
  obtain ⟨_, hrevision, -⟩ := bind_ok h
  exact of_decide_eq_true (ensure_ok hrevision)

theorem revision_of_enter {w : World} {r : Handle × Identity} (h : site.enter w = .ok r) :
    w.database.revision ∈ admitted := by
  obtain ⟨demo, -, h⟩ := bind_ok h
  obtain ⟨_, -, h⟩ := bind_ok h
  obtain ⟨identity, hcheck, -⟩ := bind_ok h
  exact revision_of_check hcheck

/-- **A migrated database is refused.** -/
theorem refused {w : World} (h : w.database.revision = head) : ∃ e, site.enter w = .error e := by
  cases hr : site.enter w with
  | error e => exact ⟨e, rfl⟩
  | ok r =>
      have hchecked := revision_of_enter hr
      rw [h] at hchecked
      exact absurd hchecked (by decide)

/-- A run that is refused leaves the world as it is. -/
theorem finish_refused {w : World} {e : Failure} (h : site.enter w = .error e) :
    finish site.perform site.applyUpgrade w = (.error e, w) := by
  show finish site.perform (Prog.lift (site.enter w) >>= _) w = _
  rw [h]
  rfl

theorem cut_refused {w : World} {e : Failure} (h : site.enter w = .error e) (n : Nat) :
    cut site.perform n site.applyUpgrade w = w := by
  cases n with
  | zero => rfl
  | succ n =>
      show cut site.perform n (Prog.lift (site.enter w) >>= _) w = w
      rw [h]
      cases n <;> rfl

end Check

/-- Operations that change nothing that the check reads. -/
def Early : Op → Prop
  | .migrate | .saveState _ | .saveComposeEnv _ | .up _ => False
  | _ => True

/-- Operations that leave the database alone. -/
def Keeping : Op → Prop
  | .migrate => False
  | _ => True

/-- The migration leads to the head. -/
def Migrates (site : Site) : Prop := ∀ db, (site.migrate db).revision = head

/-- `docker compose stop` changes of the containers nothing but whether those of the application
run. -/
def Stops (site : Site) : Prop :=
  ∀ containers, (site.stop containers).map Container.stopped = containers.map Container.stopped

section Runs

variable {site : Site}

theorem Unmigrated.refl (w : World) : Unmigrated w w := ⟨rfl, rfl, rfl, rfl, rfl⟩

theorem Unmigrated.perform (hstop : Stops site) {start w : World} {op : Op} (hop : Early op)
    (h : Unmigrated start w) : Unmigrated start (site.perform w op).2 := by
  have hsame : ∀ w' : World, w'.state = w.state → w'.composeEnv = w.composeEnv →
      w'.regular = w.regular → w'.database = w.database → w'.containers = w.containers →
        Unmigrated start w' := by
    intro w' hstate henv hregular hdatabase hcontainers
    exact ⟨hstate.trans h.state, henv.trans h.composeEnv, hregular.trans h.regular,
      hdatabase.trans h.database, hcontainers ▸ h.containers⟩
  cases op with
  | stop =>
      exact ⟨h.state, h.composeEnv, h.regular, h.database, (hstop w.containers).trans h.containers⟩
  | copy directory name =>
      simp only [Site.perform]
      split <;> exact hsame _ rfl rfl rfl rfl rfl
  | dump directory =>
      simp only [Site.perform]
      split <;> exact hsame _ rfl rfl rfl rfl rfl
  | migrate => exact hop.elim
  | saveState state => exact hop.elim
  | saveComposeEnv env => exact hop.elim
  | up demo => exact hop.elim
  | _ => exact hsame _ rfl rfl rfl rfl rfl

theorem database_perform {w : World} {op : Op} (hop : Keeping op) :
    (site.perform w op).2.database = w.database := by
  cases op with
  | migrate => exact hop.elim
  | copy directory name =>
      simp only [Site.perform]
      split <;> rfl
  | dump directory =>
      simp only [Site.perform]
      split <;> rfl
  | _ => rfl

theorem only_verify {A : Op → Prop} (hlook : A .look) (hrequest : A .request) (demo : Handle) :
    Only A (site.verify demo) :=
  ⟨hlook, fun _ => (only_lift _).bind fun _ => ⟨hrequest, fun _ => only_lift _⟩⟩

theorem only_copyAll (directory : String) (names : List String) :
    Only Early (Site.copyAll directory names) := by
  induction names with
  | nil => trivial
  | cons name names ih => exact ⟨trivial, fun _ => (only_lift _).bind fun _ => ih⟩

theorem only_backup (demo : Handle) : Only Early (site.backup demo) := by
  refine ⟨trivial, fun w => (only_lift _).bind fun _ => ⟨trivial, fun suffix => ?_⟩⟩
  refine ⟨trivial, fun _ => ⟨trivial, fun _ => (only_copyAll _ _).bind fun _ => ?_⟩⟩
  refine ⟨trivial, fun dumped => (only_lift _).bind fun _ => ⟨trivial, fun listed => ?_⟩⟩
  exact (only_lift _).bind fun _ => ⟨trivial, fun w => ⟨trivial, fun _ => trivial⟩⟩

theorem only_plan (demo : Handle) : Only Early (site.plan demo) := by
  refine ⟨trivial, fun suffix => ⟨trivial, fun _ => ⟨trivial, fun _ => ⟨trivial, fun w => ?_⟩⟩⟩⟩
  exact (only_lift _).bind fun images => ⟨trivial, fun _ => trivial⟩

theorem only_backedUp (plan : Plan) : Only Early (site.backedUp plan) := by
  unfold Site.backedUp
  split
  · trivial
  · refine ⟨trivial, fun w => (only_lift _).bind fun demo => (only_backup demo).bind fun _ => ?_⟩
    exact ⟨trivial, fun w => (only_lift _).bind fun _ => ⟨trivial, fun _ => trivial⟩⟩

/-- What a world can be at a boundary. -/
def Between (start w : World) : Prop := Unmigrated start w ∨ w.database.revision = head

theorem always_early (hstop : Stops site) {start w : World} {α : Type} {m : Script α}
    (hm : Only Early m) (h : Unmigrated start w) :
    Always site.perform (Between start) m (fun _ => Unmigrated start) w :=
  (hm.always (fun _ _ hop h => h.perform hstop hop) h).mono (fun _ h => .inl h) fun _ _ h => h

theorem always_keeping {start w : World} {α : Type} {m : Script α} (hm : Only Keeping m)
    (h : w.database.revision = head) :
    Always site.perform (Between start) m (fun _ _ => True) w := by
  refine (hm.always (P := fun w => w.database.revision = head) (fun w op hop h => ?_) h).mono
    (fun _ h => .inr h) fun _ _ _ => trivial
  rw [database_perform hop]
  exact h

theorem always_switchOver (hmigrate : Migrates site) (hstop : Stops site) {start w : World}
    (plan : Plan) (h : Unmigrated start w) :
    Always site.perform (Between start) (site.switchOver plan) (fun _ _ => True) w := by
  -- the first operation stops the containers, the second one migrates
  have hstopped : Unmigrated start (site.perform w .stop).2 := h.perform hstop trivial
  refine ⟨.inl h, .inl hstopped, always_keeping ?_ (hmigrate _)⟩
  refine ⟨trivial, fun _ => ⟨trivial, fun _ => ⟨trivial, fun w => ?_⟩⟩⟩
  refine (only_lift _).bind fun demo => ⟨trivial, fun _ => ?_⟩
  exact (only_verify trivial trivial demo).bind fun _ => ⟨trivial, fun name =>
    ⟨trivial, fun _ => trivial⟩⟩

/-- **A run from an unmigrated world** is at every boundary in an unmigrated world or in a
migrated one. -/
theorem always_applyUpgrade (hmigrate : Migrates site) (hstop : Stops site) {start w : World}
    (h : Unmigrated start w) :
    Always site.perform (Between start) site.applyUpgrade (fun _ _ => True) w := by
  have hproceed : ∀ (plan : Plan) (w : World), Unmigrated start w →
      Always site.perform (Between start) (do
        let w ← look
        let images ← Prog.lift (Site.imageIds w plan.target.env)
        Prog.lift (ensure (images = plan.images) (.demo "upgrade"))
        let plan ← site.backedUp plan
        let w ← look
        Prog.lift (site.checkBackup w plan)
        site.switchOver plan) (fun _ _ => True) w := by
    intro plan w h
    refine ⟨.inl h, always_lift (.inl h) (fun _ => trivial) fun images _ => ?_⟩
    refine always_lift (.inl h) (fun _ => trivial) fun _ _ => Always.bind ?_
    refine (always_early hstop (only_backedUp plan) h).mono (fun _ h => h) fun r w h => ?_
    cases r with
    | error e => trivial
    | ok plan =>
        refine ⟨.inl h, always_lift (.inl h) (fun _ => trivial) fun _ _ => ?_⟩
        exact always_switchOver hmigrate hstop plan h
  refine ⟨.inl h, always_lift (.inl h) (fun _ => trivial) fun r hr => ?_⟩
  obtain ⟨demo, identity⟩ := r
  show Always site.perform (Between start) (match w.pending with | some plan => _ | none => _) _ w
  split
  · exact always_lift (.inl h) (fun _ => trivial) fun _ _ => hproceed _ w h
  · split
    · exact (always_early hstop (only_verify trivial trivial demo) h).mono (fun _ h => h) fun _ _ _ =>
        trivial
    · refine Always.bind ?_
      refine (always_early hstop (only_plan demo) h).mono (fun _ h => h) fun r w h => ?_
      cases r with
      | error e => trivial
      | ok plan => exact hproceed plan w h

/-- A cut leads from a world between to another one. -/
theorem between_cut (hmigrate : Migrates site) (hstop : Stops site) {start w : World}
    (h : Between start w) (n : Nat) :
    Between start (cut site.perform n site.applyUpgrade w) := by
  obtain h | h := h
  · exact (always_applyUpgrade hmigrate hstop h).cut n
  · obtain ⟨e, he⟩ : ∃ e, site.enter _ = .error e := refused h
    rw [cut_refused he]
    exact .inr h

theorem between_after (hmigrate : Migrates site) (hstop : Stops site) (start : World)
    (cuts : List Nat) :
    Between start (after site start cuts) := by
  induction cuts using List.reverseRecOn with
  | nil => exact .inl (Unmigrated.refl start)
  | append_singleton cuts n ih =>
      rw [after, attempts_snoc]
      exact between_cut hmigrate hstop ih n

/-- **A run is admitted** exactly as long as the database is not migrated. -/
theorem enter_iff (hmigrate : Migrates site) (hstop : Stops site) {start : World}
    (hstart : ∃ r, site.enter start = .ok r) (cuts : List Nat) :
    (∃ r, site.enter (after site start cuts) = .ok r) ↔
      (after site start cuts).database.revision ≠ head := by
  constructor
  · intro ⟨r, hr⟩ hhead
    obtain ⟨e, he⟩ : ∃ e, site.enter _ = .error e := refused hhead
    rw [he] at hr
    cases hr
  · intro hhead
    rw [enter_congr ((between_after hmigrate hstop start cuts).resolve_right hhead)]
    exact hstart

end Runs

/-- **No upgrade resumes.** Wherever an upgrade is interrupted, it does not end with an
installation on which a further run is a no-op. The runs pass their checks exactly as long
as none of them has migrated the database. -/
theorem never_resumes (site : Site) (hmigrate : Migrates site) (hstop : Stops site) (start : World)
    (hstart : ∃ r, site.enter start = .ok r) (cuts : List Nat) :
    ¬ Resumes site start cuts ∧
      ((∀ before, before <+: cuts → ∃ r, site.enter (after site start before) = .ok r) ↔
        ∀ before, before <+: cuts → (after site start before).database.revision ≠ head) := by
  constructor
  · intro h
    obtain ⟨last, -, hhead, -, -, -, hfurther⟩ := h.completes
    obtain ⟨e, he⟩ : ∃ e, site.enter _ = .error e := refused hhead
    rw [finish_refused he] at hfurther
    cases hfurther
  · exact forall₂_congr fun before _ => enter_iff hmigrate hstop hstart before

/-! ### A demo at the last admitted revision -/

namespace Prepared

def password : String := "0123456789abcdef0123456789abcdef0123456789abcdef0123456789abcdef"

def url : String := "postgresql+psycopg://kzhome:" ++ password ++ "@postgres:5432/kzhome"

def env : Env := ⟨[("DATABASE_URL", url), ("AUTH_JWT_SECRET", "jwt"), ("MQTT_PASSWORD", "mqtt"),
  ("DEMO_INPUT_DIR", "/demo"), ("DEMO_PLATFORM", "linux/amd64"), ("DEMO_CORE_IMAGE", "core:14"),
  ("DEMO_WEB_IMAGE", "web:14")], by decide⟩

/-- The Compose files. -/
def config (env : Env) : Config where
  volumes := ⟨[("postgres_data", ⟨"kzhome-demo_postgres_data", false⟩)], by decide⟩
  networks := ⟨[("backend", ⟨"kzhome-demo_backend", false⟩)], by decide⟩
  services :=
    (((Dict.empty.set "postgres" ⟨.empty, "postgres:17", [], none, false⟩).set
      "mosquitto" ⟨.empty, "eclipse-mosquitto:2", [], none, false⟩).set
      "proxy" ⟨.empty, (env.get? "DEMO_WEB_IMAGE").getD "", ["127.0.0.1"], none, false⟩).set
      "core" ⟨((((Dict.empty.set "DATABASE_URL" ((env.get? "DATABASE_URL").getD "")).set
        "MQTT_TLS_ENABLED" "true").set "MQTT_HOST" "mosquitto").set "APP_ENV" "production").set
        "AUTH_JWT_SECRET" "jwt" |>.set "MQTT_PASSWORD" "mqtt",
        (env.get? "DEMO_CORE_IMAGE").getD "", ["127.0.0.1"], none, false⟩

/-- The container of a service that `up` creates. -/
def created (w : World) (demo : Handle) (service : String) : Container :=
  let entry := (config demo.env).services.get? service
  { project := "kzhome-demo"
    service
    env := (entry.map (·.environment)).getD .empty
    image := ((entry.bind fun e => w.images.get? e.image)).getD ""
    running := true
    mounts := [] }

def site : Site where
  project := "kzhome-demo"
  path := "/demo"
  environ := .empty
  web := ⟨false, true, ["package.json", "package-lock.json", "index.html",
    "src/data/core/permissions.ts", "src/data/core/relay-control.ts"], true, false,
    ["package.json", "package-lock.json", "index.html"]⟩
  webSource := "/web"
  identity := ⟨"tree", "commit"⟩
  resolve := id
  config _ env _ := config env
  volumeLabel _ := some (some "kzhome-demo")
  pulled := ⟨[("postgres:17", "p1"), ("eclipse-mosquitto:2", "m1")], by decide⟩
  build env images := (["DEMO_CORE_IMAGE", "DEMO_WEB_IMAGE"].filterMap env.get?).foldl
    (fun images tag => images.set tag ("built " ++ tag)) images
  stop containers := containers.map Container.stopped
  uuid n := String.ofList (List.replicate (n + 1) 'a')
  sha256
    | .text text => text
    | .state _ => "state"
    | .env _ => "env"
  pgDump db := some (db.revision ++ db.rows)
  restorable _ := true
  migrate db := { db with revision := head }
  up w demo := created w demo "core" :: created w demo "proxy" ::
    w.containers.filter fun c => !(c.service = "core" || c.service = "proxy")
  serves w := w.database.revision = head

def start : World where
  files := ⟨[("user.json", "u"), ("simulation.json", "s"), ("proxy.conf", "p"),
    ("mqtt/ca.crt", "c"), ("mqtt/ca.key", "k"), ("mqtt/server.crt", "sc"),
    ("mqtt/server.key", "sk"), ("mqtt/passwords", "pw"), ("mqtt/acl", "acl")], by decide⟩
  regular := privateNames ++ ["state.json", "compose.env"]
  state := ⟨14, "kzhome-demo", env, some password, "/web", "old", none⟩
  composeEnv := env
  pending := none
  history := []
  contexts := []
  backups := .empty
  images := .empty
  containers := [⟨"kzhome-demo", "core", env, "c1", true, []⟩,
    ⟨"kzhome-demo", "proxy", .empty, "w1", true, []⟩,
    ⟨"kzhome-demo", "postgres", .empty, "p1", true, []⟩,
    ⟨"kzhome-demo", "mosquitto", .empty, "m1", true, []⟩]
  database := ⟨"0007_control_authority", "rows"⟩
  drawn := 0

theorem site_migrates : Migrates site := fun _ => rfl

theorem site_stops : Stops site := by
  intro containers
  show (containers.map Container.stopped).map Container.stopped = _
  rw [List.map_map]
  refine List.map_congr_left fun c _ => ?_
  simp only [Function.comp_apply, Container.stopped]
  split <;> rfl

theorem start_enters : ∃ r, site.enter start = .ok r := by
  cases h : site.enter start with
  | ok r => exact ⟨r, rfl⟩
  | error e =>
      have hok : (site.enter start).toBool = true := by rfl
      rw [h] at hok
      cases hok

end Prepared

open Prepared in
/-- The first run is interrupted between the migration and the metadata. -/
theorem never_resumes_prepared : ¬ Resumes site start [32] ∧
    ((∀ before, before <+: [32] → ∃ r, site.enter (after site start before) = .ok r) ↔
      ∀ before, before <+: [32] → (after site start before).database.revision ≠ head) ∧
    (after site start [32]).database.revision = head ∧ (after site start [32]).state.env = env := by
  obtain ⟨hnever, hpasses⟩ :=
    never_resumes site site_migrates site_stops start start_enters [32]
  exact ⟨hnever, hpasses, by rfl, by rfl⟩

open Prepared in
/-- The upgrade passes, and a further run is refused. So is the rerun of an upgrade that was
interrupted between its migration and its metadata. -/
theorem rerun_refused_prepared :
    (finish site.perform site.applyUpgrade start).1 = .ok () ∧
      (finish site.perform site.applyUpgrade
        (finish site.perform site.applyUpgrade start).2).1 = .error (.demo "upgrade") ∧
      (after site start [32]).pending.isSome ∧
      (finish site.perform site.applyUpgrade (after site start [32])).1 =
        .error (.demo "upgrade") ∧
      ¬ Resumes site start [32] := by
  refine ⟨by rfl, by rfl, by rfl, by rfl, fun h => ?_⟩
  obtain ⟨last, hlast, -⟩ := h.completes
  have herror : (finish site.perform site.applyUpgrade (after site start [32])).1 =
      .error (.demo "upgrade") := by rfl
  rw [hlast] at herror
  cases herror

end DemoUpgrade

end KzHome
