import SourceLens.Library.PyText
import SourceLens.Library.Table
import SourceLens.Library.TaskPool
import SourceLens.Library.Transition

/-! Completing a registration (`CompleteRegistrationView.post`), sending the link
(`create_registration_token`) and creating users by hand (`accounts/views/management.py`), one
statement a step. A token is its number. -/

namespace SourceLens.Registration

open Transition

abbrev Text := List Char

structure User where
  id : Nat
  username : Text
  email : Text
  deriving DecidableEq

structure Profile where
  id : Nat
  user : Nat
  completed : Bool
  token : Option Nat
  expires : Option Nat
  language : Text
  timezone : Text
  deriving DecidableEq

structure Accounts where
  users : Table User User.id
  profiles : Table Profile Profile.id

section Texts

variable (lower : Text → Text)

def normalizeAnswerLanguage (value : Text) : Text :=
  let dashed := (PyText.strip PyText.isSpace value).map fun c => if c = '_' then '-' else c
  let start := (lower dashed).takeWhile (· ≠ '-')
  if start = "zh".toList then "zh-CN".toList
  else if start = "es".toList then "es".toList
  else "en-US".toList

/-- `BaseUserManager.normalize_email`: the part after the last `@` is put in lower case. -/
def normalizeEmail (email : Text) : Text :=
  let stripped := PyText.strip PyText.isSpace email
  let domain := (stripped.reverse.takeWhile (· ≠ '@')).reverse
  if domain.length < stripped.length then
    stripped.take (stripped.length - domain.length) ++ lower domain
  else email

def isAlnum (c : Char) : Bool :=
  ('a' ≤ c && c ≤ 'z') || ('A' ≤ c && c ≤ 'Z') || ('0' ≤ c && c ≤ '9')

def isNameChar (c : Char) : Bool := isAlnum c || c = '.' || c = '_' || c = '-'

/-- What is left for a pattern that ends in `$`: it also matches before a last line feed. -/
def beforeEnd (text : Text) : Text :=
  if text.getLast? = some '\n' then text.dropLast else text

def edgeDot (text : Text) : Bool := text.head? = some '.' || text.getLast? = some '.'

def reservedWords : List Text :=
  ["admin", "administrator", "root", "postmaster", "webmaster", "hostmaster", "noreply",
    "no-reply", "support", "help", "info", "contact"].map String.toList

/-- `VirtualEmailUsernameSerializer` on a name, up to its uniqueness. -/
def validateUsername (value : Text) : Option Text :=
  let trimmed := PyText.strip PyText.isSpace value
  let name := PyText.strip PyText.isSpace (lower trimmed)
  if trimmed.length < 3 ∨ 64 < trimmed.length then none
  else if (beforeEnd name).isEmpty || !(beforeEnd name).all isNameChar then none
  else if edgeDot name then none
  else if reservedWords.any fun word => word = name then none
  else some name

end Texts

/-- The format that `validate_virtual_email_alias` asks of a name. -/
def validateVirtualEmailAlias (name : Text) : Bool :=
  let body := beforeEnd name
  3 ≤ name.length && name.length ≤ 64 && !edgeDot name &&
    if name.length = 3 then body.length = 3 && body.all fun c => isAlnum c || c = '.'
    else 2 ≤ body.length && body.all isNameChar && body.head?.any isAlnum &&
      body.getLast?.any isAlnum

namespace Accounts

variable (accounts : Accounts)

def nameTaken (username : Text) : Bool :=
  accounts.users.rows.any fun user => user.username = username

def emailTaken (email : Text) : Bool := accounts.users.rows.any fun user => user.email = email

def admits (profile : Profile) : Bool :=
  (accounts.users.get? profile.user).isSome && accounts.profiles.rows.all fun other =>
    other.id = profile.id || other.user ≠ profile.user &&
      (profile.token = none || other.token ≠ profile.token)

def saveProfile (profile : Profile) : Option Accounts :=
  if accounts.admits profile then
    some { accounts with profiles := accounts.profiles.save profile }
  else none

def insertProfile (make : Nat → Profile) (keyed : ∀ id, (make id).id = id) : Option Accounts :=
  if accounts.admits (make accounts.profiles.sequence) then
    some { accounts with profiles := accounts.profiles.create make keyed }
  else none

def saveUser (user : User) : Option Accounts :=
  if accounts.users.rows.any fun other => other.id ≠ user.id && other.username = user.username then
    none
  else some { accounts with users := accounts.users.save user }

def createUser (username email : Text) : Option Accounts :=
  if accounts.nameTaken username then none
  else some { accounts with
    users := accounts.users.create (fun id => ⟨id, username, email⟩) fun _ => rfl }

def deleteProfile (id : Nat) : Accounts :=
  { accounts with profiles := accounts.profiles.deleteWhere fun profile => profile.id = id }

def deleteUser (id : Nat) : Accounts where
  users := accounts.users.deleteWhere fun user => user.id = id
  profiles := accounts.profiles.deleteWhere fun profile => profile.user = id

/-- The profile that the signal adds to a new user; a failure is only logged. -/
def createProfile (user : Nat) : Accounts :=
  if accounts.profiles.rows.any fun profile => profile.user = user then accounts
  else (accounts.insertProfile
    (fun id => ⟨id, user, false, none, none, "zh-CN".toList, "Asia/Shanghai".toList⟩)
    fun _ => rfl).getD accounts

end Accounts

structure Request where
  token : Nat
  username : Text
  language : Text
  timezone : Text
  deriving DecidableEq

inductive Phase
  | save
  | deleteProfile
  | deleteUser
  | checkUsername
  | checkEmail
  | create
  deriving DecidableEq, Repr

/-- A request that has reached the completion step: the pending user and profile as read, and
how many users there had been then. -/
structure Completion where
  request : Request
  user : User
  profile : Profile
  drawn : Nat
  phase : Phase
  deriving DecidableEq

inductive RegisterStage
  | lookup
  | name (counter : Nat)
  | insert (username : Text)
  | signal (user : User)
  | saveUser (user : User)
  | profile (user : Nat)
  | saveProfile (profile : Profile)
  deriving DecidableEq

/-- A call of `create_registration_token`. -/
structure Register where
  token : Nat
  expires : Nat
  email : Text
  language : Text
  stage : RegisterStage
  deriving DecidableEq

inductive ManageStage
  | username
  | email
  | insert
  | signal (user : Nat)
  | profile (user : Nat)
  deriving DecidableEq

structure Manage where
  username : Text
  email : Text
  language : Text
  timezone : Text
  stage : ManageStage
  deriving DecidableEq

inductive Task
  | validate (request : Request)
  | find (request : Request)
  | complete (completion : Completion)
  | register (register : Register)
  | manage (manage : Manage)
  deriving DecidableEq

structure Answer where
  completion : Completion
  created : Option (User × Profile)
  accounts : Accounts

structure Settings where
  lower : Text → Text
  tokenExpiry : Nat

structure World where
  now : Nat
  accounts : Accounts
  /-- How many tokens have been drawn. -/
  tokens : Nat
  tasks : List Task
  log : List Answer

/-- What a statement leaves: the accounts, the task that goes on, the answer. -/
structure Effect where
  accounts : Accounts
  next : Option Task
  answer : Option Answer

def Effect.silent (accounts : Accounts) (next : Option Task) : Effect := ⟨accounts, next, none⟩

def Completion.fail (completion : Completion) (accounts : Accounts) : Effect :=
  ⟨accounts, none, some ⟨completion, none, accounts⟩⟩

def Completion.proceed (completion : Completion) (accounts : Accounts) (phase : Phase) : Effect :=
  .silent accounts (some (.complete { completion with phase := phase }))

/-- The user and the profile that `create_user_with_config` commits. -/
def Completion.commit (settings : Settings) (completion : Completion) (accounts : Accounts) :
    Effect :=
  let request := completion.request
  let email := normalizeEmail settings.lower completion.user.email
  match accounts.createUser request.username email with
  | none => completion.fail accounts
  | some next =>
    let id := accounts.users.sequence
    let user : User := ⟨id, request.username, email⟩
    let profile (key : Nat) : Profile := ⟨key, id, true, none, none,
      normalizeAnswerLanguage settings.lower request.language, request.timezone⟩
    let after : Accounts := { next with profiles := next.profiles.create profile fun _ => rfl }
    ⟨after, none, some ⟨completion, some (user, profile next.profiles.sequence), after⟩⟩

def Completion.advance (settings : Settings) (completion : Completion) (accounts : Accounts) :
    Effect :=
  match completion.phase with
  | .save =>
    match accounts.saveProfile { completion.profile with token := none, expires := none } with
    | none => completion.fail accounts
    | some next => completion.proceed next .deleteProfile
  | .deleteProfile => completion.proceed (accounts.deleteProfile completion.profile.id) .deleteUser
  | .deleteUser => completion.proceed (accounts.deleteUser completion.user.id) .checkUsername
  | .checkUsername =>
    if validateVirtualEmailAlias completion.request.username &&
        !accounts.nameTaken completion.request.username then
      completion.proceed accounts .checkEmail
    else completion.fail accounts
  | .checkEmail =>
    if accounts.emailTaken completion.user.email then completion.fail accounts
    else completion.proceed accounts .create
  | .create => completion.commit settings accounts

/-- The pending profile of a token, with its user; `none` where the request is refused. -/
def findPending (now : Nat) (accounts : Accounts) (request : Request) : Option Completion :=
  (accounts.profiles.rows.find? fun profile =>
    profile.token = some request.token && !profile.completed).bind fun profile =>
      if profile.expires.any (now < ·) then
        (accounts.users.get? profile.user).map fun user =>
          ⟨request, user, profile, accounts.users.sequence, .save⟩
      else none

def Register.at (register : Register) (stage : RegisterStage) : Option Task :=
  some (.register { register with stage := stage })

/-- The name of a pending user: the part of the email before the `@`, then with a counter. -/
def Register.candidate (register : Register) (counter : Nat) : Text :=
  let base := register.email.takeWhile (· ≠ '@')
  if counter = 0 then base else base ++ Nat.toDigits 10 counter

def Register.advance (settings : Settings) (register : Register) (accounts : Accounts) : Effect :=
  match register.stage with
  | .lookup =>
    match accounts.users.rows.find? fun user => user.email = register.email with
    | some user => .silent accounts (register.at (.profile user.id))
    | none => .silent accounts (register.at (.name 0))
  | .name counter =>
    let username := register.candidate counter
    if accounts.nameTaken username then .silent accounts (register.at (.name (counter + 1)))
    else .silent accounts (register.at (.insert username))
  | .insert username =>
    let email := normalizeEmail settings.lower register.email
    match accounts.createUser username email with
    | none => .silent accounts none
    | some next =>
      .silent next (register.at (.signal ⟨accounts.users.sequence, username, email⟩))
  | .signal user => .silent (accounts.createProfile user.id) (register.at (.saveUser user))
  | .saveUser user =>
    match accounts.saveUser user with
    | none => .silent accounts none
    | some next => .silent next (register.at (.profile user.id))
  | .profile user =>
    match accounts.profiles.rows.find? fun profile => profile.user = user with
    | some profile =>
      .silent accounts (register.at (.saveProfile { profile with
        token := some register.token
        expires := some register.expires
        language := register.language }))
    | none =>
      .silent ((accounts.insertProfile (fun id => ⟨id, user, false, some register.token,
        some register.expires, register.language, "Asia/Shanghai".toList⟩)
          fun _ => rfl).getD accounts) none
  | .saveProfile profile => .silent ((accounts.saveProfile profile).getD accounts) none

def Manage.at (manage : Manage) (stage : ManageStage) : Option Task :=
  some (.manage { manage with stage := stage })

def Manage.advance (settings : Settings) (manage : Manage) (accounts : Accounts) : Effect :=
  match manage.stage with
  | .username =>
    if accounts.nameTaken manage.username then .silent accounts none
    else .silent accounts (manage.at .email)
  | .email =>
    if manage.email ≠ [] ∧ accounts.emailTaken manage.email then .silent accounts none
    else .silent accounts (manage.at .insert)
  | .insert =>
    match accounts.createUser manage.username (normalizeEmail settings.lower manage.email) with
    | none => .silent accounts none
    | some next => .silent next (manage.at (.signal accounts.users.sequence))
  | .signal user => .silent (accounts.createProfile user) (manage.at (.profile user))
  | .profile user =>
    .silent { accounts with
      profiles := accounts.profiles.updateWhere (fun profile => profile.user = user)
        ⟨fun profile =>
          { profile with language := manage.language, timezone := manage.timezone }, fun _ => rfl⟩ }
      none

def Task.advance (settings : Settings) (now : Nat) (accounts : Accounts) : Task → Effect
  | .validate request =>
    if accounts.nameTaken request.username then .silent accounts none
    else .silent accounts (some (.find request))
  | .find request => .silent accounts ((findPending now accounts request).map .complete)
  | .complete completion => completion.advance settings accounts
  | .register call => call.advance settings accounts
  | .manage call => call.advance settings accounts

def Task.raise (accounts : Accounts) : Task → Effect
  | .complete completion => completion.fail accounts
  | _ => .silent accounts none

inductive Action
  | wait (ticks : Nat)
  | complete (token : Nat) (username language timezone : Text)
  | register (email language : Text)
  | manage (username email language timezone : Text)
  | advance (index : Nat) (raises : Bool)
  deriving DecidableEq

def step (settings : Settings) (world : World) : Action → Option World
  | .wait ticks => some { world with now := world.now + ticks }
  | .complete token username language timezone =>
    (validateUsername settings.lower username).map fun name => { world with
      tasks := world.tasks ++ [.validate
        ⟨token, name, normalizeAnswerLanguage settings.lower language, timezone⟩] }
  | .register email language => some { world with
      tokens := world.tokens + 1
      tasks := world.tasks ++ [.register ⟨world.tokens, world.now + settings.tokenExpiry, email,
        normalizeAnswerLanguage settings.lower language, .lookup⟩] }
  | .manage username email language timezone =>
    let name := PyText.strip PyText.isSpace username
    let zone := PyText.strip PyText.isSpace timezone
    if name = [] then none
    else some { world with
      tasks := world.tasks ++ [.manage ⟨name, PyText.strip PyText.isSpace email,
        normalizeAnswerLanguage settings.lower language,
        if zone = [] then "Asia/Shanghai".toList else zone, .username⟩] }
  | .advance index raises =>
    (world.tasks[index]?).map fun task =>
      let effect := if raises then task.raise world.accounts
        else task.advance settings world.now world.accounts
      { world with
        accounts := effect.accounts
        tasks := TaskPool.settle world.tasks index effect.next
        log := world.log ++ effect.answer.toList }

/-- Any accounts that a database can hold, and the tokens drawn so far. -/
structure Start where
  accounts : Accounts
  tokens : Nat
  unique : ∀ first ∈ accounts.profiles.rows, ∀ second ∈ accounts.profiles.rows,
    first.token ≠ none → first.token = second.token → first.id = second.id
  drawn : ∀ profile ∈ accounts.profiles.rows, ∀ token ∈ profile.token, token < tokens

def Start.world (start : Start) : World := ⟨0, start.accounts, start.tokens, [], []⟩

/-- A new, completed account as requested, or the pending one as it was. -/
def Answer.Usable (answer : Answer) : Prop :=
  match answer.created with
  | some (user, profile) =>
    user ∈ answer.accounts.users.rows ∧ profile ∈ answer.accounts.profiles.rows ∧
      profile.user = user.id ∧ profile.completed = true ∧
      user.username = answer.completion.request.username ∧
      user.email = answer.completion.user.email ∧ answer.completion.drawn ≤ user.id
  | none =>
    answer.completion.user ∈ answer.accounts.users.rows ∧
      answer.completion.profile ∈ answer.accounts.profiles.rows

structure Usable (log : List Answer) : Prop where
  answers : ∀ answer ∈ log, answer.Usable
  once : ((log.filter fun answer => answer.created.isSome).map
    fun answer => answer.completion.request.token).Nodup

def Completion.Meets (settings : Settings) (accounts : Accounts) (raises : Bool)
    (completion : Completion) : Prop :=
  match completion.phase with
  | .save => completion.user ∈ accounts.users.rows ∧ completion.profile ∈ accounts.profiles.rows
  | .deleteProfile | .deleteUser => raises = false
  | .checkUsername => raises = false ∧
      validateVirtualEmailAlias completion.request.username = true ∧
      accounts.nameTaken completion.request.username = false
  | .checkEmail => raises = false ∧ accounts.emailTaken completion.user.email = false
  | .create => raises = false ∧ accounts.nameTaken completion.request.username = false ∧
      normalizeEmail settings.lower completion.user.email = completion.user.email

/-- A completion finds the pending user and profile as it read them when it clears the token;
from then on its statements do not raise, and the name and the email are free and in the form
that the new account has. -/
def Orderly (settings : Settings) (world : World) : Action → Prop
  | .advance index raises => ∀ completion, world.tasks[index]? = some (.complete completion) →
      completion.Meets settings world.accounts raises
  | _ => True

end SourceLens.Registration
