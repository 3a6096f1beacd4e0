import EventAnalytics.Python

/-! `app/core/security.py`: access tokens. -/
namespace EventAnalytics.Core

/-- `app/config.py`, what the tokens are made with. -/
structure JwtSettings where
  jwtSecret : String
  jwtAlgorithm : String := "HS256"
  jwtExpireMinutes : Nat := 1440

/-- `jose.jwt`. `decode` is asked at a time in seconds, and `none` is a `JWTError`. -/
structure Jwt where
  encode : Dict → String → String → String
  decode : Nat → String → String → String → Option Dict

/-- `d[key] = value`. -/
def setItem (d : Dict) (key : String) (value : Json) : Dict :=
  if d.any fun kv => kv.1 = key then d.map fun kv => if kv.1 = key then (key, value) else kv
  else d ++ [(key, value)]

/-- `d.update(extra)`. -/
def update (d extra : Dict) : Dict := extra.foldl (fun d kv => setItem d kv.1 kv.2) d

/-- The claims of a token. Times are whole seconds in it. -/
def payloadOf (subject role : String) (exp iat : Nat) : Dict :=
  [("sub", .str subject), ("role", .str role), ("exp", .int exp), ("iat", .int iat)]

/-- `expires_minutes or settings.jwt_expire_minutes`. -/
def lifetime (settings : JwtSettings) : Option Nat → Nat
  | some minutes => if minutes = 0 then settings.jwtExpireMinutes else minutes
  | none => settings.jwtExpireMinutes

/-- The second in which a token made at `now` milliseconds expires. -/
def expiry (settings : JwtSettings) (expiresMinutes : Option Nat) (now : Nat) : Nat :=
  (now + lifetime settings expiresMinutes * 60000) / 1000

/-- The clock is read at `now` for the expiry, and again at `issuedAt`. -/
def createAccessToken (jwt : Jwt) (settings : JwtSettings) (now issuedAt : Nat)
    (subject role : String) (expiresMinutes : Option Nat) (extra : Dict) : String :=
  let payload := payloadOf subject role (expiry settings expiresMinutes now) (issuedAt / 1000)
  jwt.encode (update payload extra) settings.jwtSecret settings.jwtAlgorithm

def decodeAccessToken (jwt : Jwt) (settings : JwtSettings) (now : Nat) (token : String) :
    Except Exn Dict :=
  match jwt.decode (now / 1000) token settings.jwtSecret settings.jwtAlgorithm with
  | some payload => .ok payload
  | none => .error .valueError

/-- A token with these claims is decoded with the key that made it until it expires. -/
def Jwt.Honours (jwt : Jwt) (settings : JwtSettings) (subject role : String) (exp iat : Nat) :
    Prop :=
  ∀ now, jwt.decode now
      (jwt.encode (payloadOf subject role exp iat) settings.jwtSecret settings.jwtAlgorithm)
      settings.jwtSecret settings.jwtAlgorithm =
    if now ≤ exp then some (payloadOf subject role exp iat) else none

theorem decode_created {jwt : Jwt} {settings : JwtSettings} {now issuedAt : Nat}
    {subject role : String} {expiresMinutes : Option Nat}
    (hjwt : jwt.Honours settings subject role (expiry settings expiresMinutes now)
      (issuedAt / 1000)) (later : Nat) :
    decodeAccessToken jwt settings later
        (createAccessToken jwt settings now issuedAt subject role expiresMinutes []) =
      if later / 1000 ≤ expiry settings expiresMinutes now then
        .ok (payloadOf subject role (expiry settings expiresMinutes now) (issuedAt / 1000))
      else .error .valueError := by
  have hcreated : createAccessToken jwt settings now issuedAt subject role expiresMinutes [] =
      jwt.encode (payloadOf subject role (expiry settings expiresMinutes now) (issuedAt / 1000))
        settings.jwtSecret settings.jwtAlgorithm := rfl
  rw [decodeAccessToken, hcreated, hjwt]
  by_cases hlive : later / 1000 ≤ expiry settings expiresMinutes now
  · rw [if_pos hlive, if_pos hlive]
  · rw [if_neg hlive, if_neg hlive]

end EventAnalytics.Core
