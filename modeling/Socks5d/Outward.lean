import Socks5d.Diagnosis
import Socks5d.Layout
import Socks5d.Opening

/-!
# What a dialogue shows

What a client and its origin get to see of a connection, and the answers of the system it depends
on. A connect comes to the same addresses and the same status whenever the system answers it alike,
however the bytes of the client arrive.
-/

namespace Socks5d

/-- What a history shows to the outside: the bytes taken from the client, the phases, the replies,
the bytes the client and the origin were sent, the addresses tried, and the statuses registered. -/
structure Outward where
  taken : List UInt8 := []
  phases : List Socks5State := []
  replies : List (List UInt8) := []
  sent : List UInt8 := []
  handed : List UInt8 := []
  tried : List AddrInfo := []
  entries : List UInt8 := []

namespace Outward

instance : Append Outward := ⟨fun w u =>
  ⟨w.taken ++ u.taken, w.phases ++ u.phases, w.replies ++ u.replies, w.sent ++ u.sent,
    w.handed ++ u.handed, w.tried ++ u.tried, w.entries ++ u.entries⟩⟩

/-- What is shown one after the other is joined part by part. -/
@[simp] theorem mk_append_mk (t t' : List UInt8) (p p' : List Socks5State) (r r' : List (List UInt8))
    (s s' h h' : List UInt8) (a a' : List AddrInfo) (e e' : List UInt8) :
    (⟨t, p, r, s, h, a, e⟩ : Outward) ++ ⟨t', p', r', s', h', a', e'⟩ =
      ⟨t ++ t', p ++ p', r ++ r', s ++ s', h ++ h', a ++ a', e ++ e'⟩ := rfl

/-- What is shown in three parts is joined in any order. -/
theorem append_assoc (w u x : Outward) : w ++ u ++ x = w ++ (u ++ x) := by
  cases w; cases u; cases x
  simp

/-- Nothing shown before changes nothing. -/
@[simp] theorem nil_append (w : Outward) : ({} : Outward) ++ w = w := by
  cases w
  simp

/-- Nothing shown behind changes nothing. -/
@[simp] theorem append_nil (w : Outward) : w ++ ({} : Outward) = w := by
  cases w
  simp

end Outward

/-- What an observation shows to the outside. -/
@[simp] def Obs.outward : Obs → Outward
  | .recv _ .client bytes => { taken := bytes }
  | .enter _ state => { phases := [state] }
  | .queued _ _ bytes => { replies := [bytes] }
  | .send _ .client bytes => { sent := bytes }
  | .send _ .origin bytes => { handed := bytes }
  | .attempt _ addr => { tried := [addr] }
  | .access _ call => { entries := [call.statusCode] }
  | _ => {}

/-- What a history shows to the outside. -/
def outward : List Obs → Outward
  | [] => {}
  | o :: rest => o.outward ++ outward rest

/-- An empty history shows nothing. -/
@[simp] theorem outward_nil : outward [] = {} := rfl

/-- The first observation is shown first. -/
@[simp] theorem outward_cons (o : Obs) (h : List Obs) :
    outward (o :: h) = o.outward ++ outward h := rfl

/-- What two histories show, one after the other. -/
@[simp] theorem outward_append (h t : List Obs) : outward (h ++ t) = outward h ++ outward t := by
  induction h with
  | nil => simp
  | cons o rest ih => simp only [List.cons_append, outward_cons, ih, Outward.append_assoc]

/-- What the system says to a connect: the outcomes of the attempts of one call, the pending error
of the socket, and `errno` as earlier calls left it. -/
structure ConnectAnswer where
  connects : List ConnectOutcome
  soError : Option Errno
  errno : Errno
  deriving DecidableEq

/-- What a callback is told about a connect. -/
def Env.answer (env : Env) : ConnectAnswer := ⟨env.connects, env.soError, env.errno⟩

/-- What the answer to a request depends on besides the request: whether a thread for the lookup can
be started, the addresses it finds, what the system says to a connect once these addresses were
tried, the address of the socket, and what the memory of the reply held. -/
structure Setting where
  threadCreated : Bool
  addresses : List AddrInfo
  answers : List AddrInfo → ConnectAnswer
  localAddr : SockAddr
  memory : List UInt8

/-- The reply to a request whose connection stands. -/
def Setting.accepts (ρ : Setting) : List UInt8 :=
  SOCKS5_VERSION :: SOCKS5_REP_SUCCEEDED :: SOCKS5_CONN_REQ_RSV :: SOCKS5_CONN_REQ_ATYP_IPV6 ::
    (ρ.memory ++ portBytes ρ.localAddr.port)

/-- The reply to a request that is refused. -/
def Setting.refuses (ρ : Setting) (status : UInt8) : List UInt8 :=
  SOCKS5_VERSION :: status :: SOCKS5_CONN_REQ_RSV :: SOCKS5_CONN_REQ_ATYP_IPV4 ::
    (List.replicate IPV4_ADDR_SIZE 0 ++ (ρ.memory.drop 4).take 2)

/-- The addresses that a walk tries. -/
def attempted : List AddrInfo → List ConnectOutcome → List AddrInfo
  | [], _ => []
  | rp :: next, outcomes =>
    rp ::
      match outcomes.headD (.failed .econnrefused) with
      | .failed e => if e = .einprogress then [] else attempted next outcomes.tail
      | _ => []

/-- A walk over some addresses tries one. -/
theorem attempted_ne_nil {addrs : List AddrInfo} (h : addrs ≠ []) (outcomes : List ConnectOutcome) :
    attempted addrs outcomes ≠ [] := by
  cases addrs with
  | nil => exact absurd rfl h
  | cons rp next => simp [attempted]

/-- The walk over the addresses shows the addresses it tries. -/
theorem outward_dialHistory (c : ConnId) (fd : ℕ) (addrs : List AddrInfo)
    (outcomes : List ConnectOutcome) : outward (dialHistory c fd addrs outcomes) =
      { tried := attempted addrs outcomes } := by
  induction addrs generalizing outcomes with
  | nil => rfl
  | cons rp next ih =>
    rw [dialHistory, attempted]
    cases outcomes.headD (.failed .econnrefused) with
    | socketFails _ => simp
    | connected => simp
    | failed e =>
      by_cases he : e = .einprogress
      · simp [he]
      · simp [he, ih]

/-- The status with which a pending connect is refused when these addresses are left. -/
def ConnectAnswer.refusal (a : ConnectAnswer) (left : List AddrInfo) : UInt8 :=
  getCode (if left ≠ [] ∧ dial left a.connects = .refused then lastFailure a.errno left a.connects
    else a.errno)

/-- The answers of a callback name the status of its refusal. -/
theorem refusalCode_eq (k : Socks5Conn) (env : Env) :
    refusalCode k env env.errno = env.answer.refusal k.addrInfo := rfl

namespace Setting

/-- What a pending connect comes to after these addresses were tried, with these left, and with a
socket or with none. -/
inductive Ends (ρ : Setting) :
    List AddrInfo → List AddrInfo → Bool → List AddrInfo → UInt8 → Prop
  | stands (tried left : List AddrInfo) (isSocket : Bool)
      (herr : isSocket = true → (ρ.answers tried).soError = none) :
      Ends ρ tried left isSocket tried SOCKS5_REP_SUCCEEDED
  | refused (tried left : List AddrInfo) (e : Errno) (herr : (ρ.answers tried).soError = some e)
      (hdial : (dial left (ρ.answers tried).connects).code ≠ CONNECTION_IN_PROGRESS) :
      Ends ρ tried left true (tried ++ attempted left (ρ.answers tried).connects)
        ((ρ.answers tried).refusal left)
  | retried (tried left final : List AddrInfo) (e : Errno) (status : UInt8)
      (herr : (ρ.answers tried).soError = some e)
      (hdial : (dial left (ρ.answers tried).connects).code = CONNECTION_IN_PROGRESS)
      (hends : Ends ρ (tried ++ attempted left (ρ.answers tried).connects)
        ((dial left (ρ.answers tried).connects).addrInfo left)
        (decide (dial left (ρ.answers tried).connects ≠ .noSocket)) final status) :
      Ends ρ tried left true final status

/-- What the connect for a request comes to: the addresses that are tried, and the status that is
registered, or none where no thread can be started for a name. -/
inductive Comes (ρ : Setting) (named : Bool) : List AddrInfo → List UInt8 → Prop
  | noThread (hname : named = true) (hthread : ρ.threadCreated = false) : Comes ρ named [] []
  | noAddress (hthread : named = true → ρ.threadCreated = true) (hnone : ρ.addresses = []) :
      Comes ρ named [] [SOCKS5_REP_HOST_UNREACHABLE]
  | stands (peer : AddrInfo) (hthread : named = true → ρ.threadCreated = true)
      (hdial : dial ρ.addresses (ρ.answers []).connects = .connected peer) :
      Comes ρ named (attempted ρ.addresses (ρ.answers []).connects) [SOCKS5_REP_SUCCEEDED]
  | pending (peer : AddrInfo) (rest final : List AddrInfo) (status : UInt8)
      (hthread : named = true → ρ.threadCreated = true)
      (hdial : dial ρ.addresses (ρ.answers []).connects = .pending peer rest)
      (hends : ρ.Ends (attempted ρ.addresses (ρ.answers []).connects) rest true final status) :
      Comes ρ named final [status]

/-- A pending connect comes to one thing only. -/
theorem Ends.unique {ρ : Setting} {tried left final final' : List AddrInfo} {isSocket : Bool}
    {status status' : UInt8} (h : ρ.Ends tried left isSocket final status)
    (h' : ρ.Ends tried left isSocket final' status') : final = final' ∧ status = status' := by
  induction h with
  | stands tried left isSocket herr =>
    cases h' with
    | stands _ _ _ _ => exact ⟨rfl, rfl⟩
    | refused _ _ e herr' _ => cases (herr rfl).symm.trans herr'
    | retried _ _ _ e _ herr' _ _ => cases (herr rfl).symm.trans herr'
  | refused tried left e herr hdial =>
    cases h' with
    | stands _ _ _ herr' => cases (herr' rfl).symm.trans herr
    | refused _ _ _ _ _ => exact ⟨rfl, rfl⟩
    | retried _ _ _ _ _ _ hdial' _ => exact absurd hdial' hdial
  | retried tried left final e status herr hdial hends ih =>
    cases h' with
    | stands _ _ _ herr' => cases (herr' rfl).symm.trans herr
    | refused _ _ _ _ hdial' => exact absurd hdial hdial'
    | retried _ _ _ _ _ _ _ hends' => exact ih hends'

/-- At most one status is registered. -/
theorem Comes.entries {ρ : Setting} {named : Bool} {tried : List AddrInfo} {entries : List UInt8}
    (h : ρ.Comes named tried entries) : entries = [] ∨ ∃ status, entries = [status] := by
  cases h with
  | noThread _ _ => exact .inl rfl
  | noAddress _ _ => exact .inr ⟨_, rfl⟩
  | stands _ _ _ => exact .inr ⟨_, rfl⟩
  | pending _ _ _ status _ _ _ => exact .inr ⟨status, rfl⟩

/-- The connect for a request comes to one thing only. -/
theorem Comes.unique {ρ : Setting} {named : Bool} {tried tried' : List AddrInfo}
    {entries entries' : List UInt8} (h : ρ.Comes named tried entries)
    (h' : ρ.Comes named tried' entries') : tried = tried' ∧ entries = entries' := by
  have hthread : ∀ {p : Prop}, named = true → ρ.threadCreated = false →
      (named = true → ρ.threadCreated = true) → p := fun hname hnone hsome => by
    cases hnone.symm.trans (hsome hname)
  cases h with
  | noThread hname hnone =>
    cases h' with
    | noThread _ _ => exact ⟨rfl, rfl⟩
    | noAddress hsome _ => exact hthread hname hnone hsome
    | stands _ hsome _ => exact hthread hname hnone hsome
    | pending _ _ _ _ hsome _ _ => exact hthread hname hnone hsome
  | noAddress hsome hempty =>
    cases h' with
    | noThread hname hnone => exact hthread hname hnone hsome
    | noAddress _ _ => exact ⟨rfl, rfl⟩
    | stands _ _ hdial => rw [hempty] at hdial; cases hdial
    | pending _ _ _ _ _ hdial _ => rw [hempty] at hdial; cases hdial
  | stands peer hsome hdial =>
    cases h' with
    | noThread hname hnone => exact hthread hname hnone hsome
    | noAddress _ hempty => rw [hempty] at hdial; cases hdial
    | stands _ _ _ => exact ⟨rfl, rfl⟩
    | pending _ _ _ _ _ hdial' _ => cases hdial.symm.trans hdial'
  | pending peer rest final status hsome hdial hends =>
    cases h' with
    | noThread hname hnone => exact hthread hname hnone hsome
    | noAddress _ hempty => rw [hempty] at hdial; cases hdial
    | stands _ _ hdial' => cases hdial.symm.trans hdial'
    | pending _ _ _ _ _ hdial' hends' =>
      obtain ⟨-, rfl⟩ := Dial.pending.inj (hdial.symm.trans hdial')
      obtain ⟨rfl, rfl⟩ := hends.unique hends'
      exact ⟨rfl, rfl⟩

end Setting

end Socks5d
