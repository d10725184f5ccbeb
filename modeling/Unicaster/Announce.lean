/-
# What is announced, and from where (`unicaster.c`, the functions without threads)

The configuration as `CONFIG GET` answers it, the choice of the announced port, the bind
list, the interface patterns, the two datagrams of a sender, and one send.  The host, the
network and `strdup` are inputs: `ConfigReply`, `SendOutcome` and the Booleans of
`initIpPatterns`.
-/
import Unicaster.Settings
import Mathlib.Data.List.DropRight

namespace Unicaster

open CLib

def maxRedisBinds : Nat := 16
def maxIpPatterns : Nat := 16
def inetAddrstrlen : Nat := 16

/-- The size of `up_message` and `down_message`. -/
def messageSize : Nat := 256

/-! ## 1. The configuration -/

/-- What `CONFIG GET` answers for one directive. -/
inductive ConfigReply where
  /-- no reply, or not an array of two elements -/
  | missing
  | notString
  | string (bytes : List Byte)

/-- The directives the module asks for. -/
structure Config where
  port : ConfigReply
  tlsPort : ConfigReply
  bind : ConfigReply
  loglevel : ConfigReply

/-- `get_config_int`, on the reply it gets. -/
def getConfigInt (reply : ConfigReply) (fallback : Int) : Int :=
  match reply with
  | .string bytes => parseInt (cstr bytes)
  | _ => fallback

/-- `get_tls_preference`. -/
def getTlsPreference (e : Environ) : Int :=
  match e.broadcastTls with
  | none => -1
  | some env =>
    if env.bytes = [] then -1
    else if strcaseeq env.bytes (ascii "1") ∨ strcaseeq env.bytes (ascii "yes")
        ∨ strcaseeq env.bytes (ascii "true") ∨ strcaseeq env.bytes (ascii "on") then 1
    else if strcaseeq env.bytes (ascii "0") ∨ strcaseeq env.bytes (ascii "no")
        ∨ strcaseeq env.bytes (ascii "false") ∨ strcaseeq env.bytes (ascii "off") then 0
    else -1

/-- `resolve_announced_port`: the port to announce or 0, and `is_tls`. -/
def resolveAnnouncedPort (e : Environ) (config : Config) : Int × Bool :=
  let port := getConfigInt config.port 0
  let tlsPort := getConfigInt config.tlsPort 0
  let preferTls := getTlsPreference e
  if preferTls = 1 then
    if tlsPort > 0 then (tlsPort, true) else (0, false)
  else if preferTls = 0 then
    if port > 0 then (port, false) else (0, false)
  else if port > 0 then (port, false)
  else if tlsPort > 0 then (tlsPort, true)
  else (0, false)

/-- The loglevel test of `RedisModule_OnLoad`. -/
def isVerbose (loglevel : ConfigReply) : Bool :=
  match loglevel with
  | .string bytes => cstr bytes = ascii "verbose" ∨ cstr bytes = ascii "debug"
  | _ => false

/-- The token loop of `load_redis_bind_ips`: the slots filled, and `allow_all_interfaces`. -/
def bindLoop : List Text → List Text → List Text × Bool
  | [], ips => (ips, false)
  | token :: tokens, ips =>
    if ips.length < maxRedisBinds then
      if token = ascii "0.0.0.0" then (ips, true)
      else bindLoop tokens (ips ++ [token.take inetAddrstrlen])
    else (ips, false)

/-- `load_redis_bind_ips`: the filled slots of `redis_bind_ips`, and `allow_all_interfaces`. -/
def loadRedisBindIps (bind : ConfigReply) : List Text × Bool :=
  match bind with
  | .missing => ([], true)
  | .notString => ([], false)
  | .string bytes => bindLoop (strtok 32 ((cstr bytes).take 255)) []

/-! ## 2. The interface patterns -/

/-- The blanks around a pattern removed. -/
def trimPattern (pattern : Text) : Text :=
  (pattern.dropWhile (· = 32)).rdropWhile (· = 32)

/-- The token loop of `init_ip_patterns`; a `strdup` that fails leaves a `NULL` pattern. -/
def patternLoop (dupOk : Nat → Bool) :
    List Text → List (Option Text) → List (Option Text)
  | [], patterns => patterns
  | token :: tokens, patterns =>
    if patterns.length < maxIpPatterns then
      let pattern := trimPattern token
      if pattern.length > 0 then
        patternLoop dupOk tokens
          (patterns ++ [if dupOk patterns.length then some pattern else none])
      else patternLoop dupOk tokens patterns
    else patterns

/-- `init_ip_patterns`; `none` where `strtok` is called on the `NULL` of a failed `strdup`. -/
def initIpPatterns (e : Environ) (copyOk : Bool) (dupOk : Nat → Bool)
    (patterns : List (Option Text)) : Option (List (Option Text)) :=
  match e.selectedInterfaces with
  | none => some patterns
  | some env =>
    if copyOk then some (patternLoop dupOk (strtok 44 env.bytes) patterns) else none

/-- The loop of `ip_matches_pattern`; `none` where it reads a `NULL` pattern. -/
def matchLoop (ip : Text) : List (Option Text) → Option Bool
  | [] => some false
  | none :: _ => none
  | some pattern :: patterns => if pattern.isPrefixOf ip then some true else matchLoop ip patterns

/-- `ip_matches_pattern`. -/
def ipMatchesPattern (ip : Text) (patterns : List (Option Text)) : Option Bool :=
  if patterns.length = 0 then some true else matchLoop ip patterns

/-! ## 3. The datagrams -/

/-- What `uuid_unparse_lower` writes. -/
structure Guid where
  bytes : Text
  length_eq : bytes.length = 36
  chars : ∀ b ∈ bytes, (48 ≤ b ∧ b ≤ 57) ∨ (97 ≤ b ∧ b ≤ 102) ∨ b = 45

/-- A GUID of zeros. -/
def zeroGuid : Guid where
  bytes := ascii "00000000-0000-0000-0000-000000000000"
  length_eq := by decide
  chars := by decide +kernel

structure BroadcastTask where
  sourceIp : Text
  redisPort : Int
  redisTls : Bool

/-- The task of a sender, as `send_udp_message` fills it in. -/
def BroadcastTask.create (ip : Text) (redisPort : Int) (redisTls : Bool) : BroadcastTask :=
  ⟨snprintf inetAddrstrlen ip, redisPort, redisTls⟩

/-- The transport as it is written. -/
def transport (tls : Bool) : Text := if tls then ascii "tls" else ascii "plain"

/-- What is formatted into `down_message`. -/
def downText (name guid : Text) (task : BroadcastTask) : Text :=
  name ++ 9 :: guid ++ ascii "\tdown\t" ++ task.sourceIp ++ 58 :: decimal task.redisPort

/-- What is formatted into `up_message`. -/
def upText (name guid : Text) (task : BroadcastTask) (interval : Int) : Text :=
  name ++ 9 :: guid ++ ascii "\tup\t" ++ task.sourceIp ++ 58 :: decimal task.redisPort
    ++ 9 :: decimal interval ++ 9 :: transport task.redisTls

def downMessage (name guid : Text) (task : BroadcastTask) : Text :=
  snprintf messageSize (downText name guid task)

def upMessage (name guid : Text) (task : BroadcastTask) (interval : Int) : Text :=
  snprintf messageSize (upText name guid task interval)

/-- What the system makes of one datagram. -/
structure SendOutcome where
  socketOk : Bool
  sendtoOk : Bool
  errno : Int

def einval : Int := 22

/-- `send_unicast_message`: the `errno` with which it fails, or `none`. -/
def sendUnicastMessage (ip : Text) (o : SendOutcome) : Option Int :=
  match inetPton ip with
  | none => some einval
  | some _ => if o.socketOk ∧ o.sendtoOk then none else some o.errno

end Unicaster
