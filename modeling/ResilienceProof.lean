import ResilienceProof.RampArithmetic
import ResilienceProof.TimeWindowRuns
import ResilienceProof.BreakerTransitions
import ResilienceProof.BreakerSlots
import ResilienceProof.BreakerPanics
import ResilienceProof.BreakerEvidence
import ResilienceProof.SharedEvidence
import ResilienceProof.SharedReference
import ResilienceProof.BreakerContexts
import ResilienceProof.LimiterWaits
import ResilienceProof.SlidingLogGoroutines
import ResilienceProof.SlidingCounterRetry
import ResilienceProof.IntegerLimits
import ResilienceProof.TokenBucketRates
import ResilienceProof.SharedLog
import ResilienceProof.SkewedClocks
import ResilienceProof.MemoryVisibility
import ResilienceProof.MemcachedIncrements
import ResilienceProof.MemcachedConflicts
import ResilienceProof.DynamoDBVersions
import ResilienceProof.DynamoDBExpiry
import ResilienceProof.DynamoDBAgreement
import ResilienceProof.ScriptBackends
import ResilienceProof.DegradedMode
import ResilienceProof.LeakyBucketAnswers
import ResilienceProof.ConcurrencyCounts
import ResilienceProof.ConcurrencyWakeups
import ResilienceProof.PipelineCounts
import ResilienceProof.Bulkhead
import ResilienceProof.ThreadPoolTasks
import ResilienceProof.DebouncerTiming
import ResilienceProof.EventBrokerCounts
import ResilienceProof.EventBrokerSequence
import ResilienceProof.CachedFlights
import ResilienceProof.DistributedExpiry
import ResilienceProof.CompositeExact
import ResilienceProof.DistributedKinds
import ResilienceProof.RequestBatches
import ResilienceProof.Backoff
import ResilienceProof.RetryBudget
import ResilienceProof.LatencyHistogram
