/-! `app/config.py`, the settings that the modelled code reads. -/
namespace EventAnalytics

structure Settings where
  ingestMode : String := "async"
  eventConsumerName : String := "worker-1"
  batchSize : Nat := 100
  eventClaimMinIdleMs : Nat := 60000
  eventMaxDeliveries : Nat := 5
  rateLimitWindowSeconds : Nat := 60
  rateLimitIp : Nat := 120
  rateLimitUser : Nat := 300
  rateLimitEvents : Nat := 600
  cacheTtlDau : Nat := 300
  cacheTtlFunnel : Nat := 300
  cacheTtlRetention : Nat := 600
  cacheTtlRealtime : Nat := 30
  idemTtlSeconds : Nat := 86400

def Settings.isAsyncIngest (s : Settings) : Bool :=
  s.ingestMode.toLower == "async"

end EventAnalytics
