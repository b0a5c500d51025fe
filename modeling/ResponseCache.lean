import ResponseCache.Bytes
import ResponseCache.Text.Blank
import ResponseCache.Text.Case
import ResponseCache.Text.Inspect
import ResponseCache.Decimal.Notation
import ResponseCache.Time.HttpDate.Format
import ResponseCache.Time.HttpDate.Parse
import ResponseCache.Time.Duration
import ResponseCache.Json.Reader
import ResponseCache.Message.Basic
import ResponseCache.Entry
import ResponseCache.Directive.Request
import ResponseCache.Directive.Response
import ResponseCache.Time.HeaderDate
import ResponseCache.Config.Json
import ResponseCache.Evaluation.Verdict
import ResponseCache.Cache.Record
import ResponseCache.Cache.Stats
import ResponseCache.Scenario.Facade
import ResponseCache.Proofs.Directive.Whole
import ResponseCache.Proofs.Evaluation.Reading
import ResponseCache.Proofs.Evaluation.Freshness
import ResponseCache.Proofs.Cache.Answer
import ResponseCache.Proofs.Cache.HitSafety
import ResponseCache.Proofs.Message.Headers
import ResponseCache.Proofs.Wire.Lines
import ResponseCache.Proofs.Wire.RoundTrip
import ResponseCache.Proofs.Key
import ResponseCache.Proofs.Store.Slots
import ResponseCache.Proofs.Run.Basic
import ResponseCache.Proofs.Run.Provenance
import ResponseCache.Proofs.Run.Agreement
import ResponseCache.Proofs.Run.Served
import ResponseCache.Proofs.Cache.Calls
import ResponseCache.Proofs.Stack.Tiers
import ResponseCache.Proofs.Directive.Lines
import ResponseCache.Proofs.Cache.Bypass
import ResponseCache.Proofs.Run.Isolation
import ResponseCache.Proofs.Stack.Run
import ResponseCache.Proofs.Stack.Staleness
import ResponseCache.Proofs.Wire.Framing
import ResponseCache.Proofs.Store.Counters
import ResponseCache.Proofs.Store.Recency
import ResponseCache.Proofs.Evaluation.Prohibition
import ResponseCache.Proofs.Stack.PassThrough
import ResponseCache.Proofs.Traffic.Statistics
import ResponseCache.Proofs.Traffic.Contents
import ResponseCache.Proofs.Cache.Commute
import ResponseCache.Proofs.Directive.First
import ResponseCache.Proofs.Evaluation.Estimate
import ResponseCache.Proofs.Evaluation.Expiry
import ResponseCache.Proofs.Wire.Accepted
import ResponseCache.Proofs.Store.Refusal
import ResponseCache.Proofs.Directive.Writing
import ResponseCache.Proofs.Directive.Meaning
import ResponseCache.Proofs.Time.Calendar
import ResponseCache.Proofs.Text.Reader
import ResponseCache.Proofs.Time.Clock
import ResponseCache.Proofs.Time.HttpDate.Written
import ResponseCache.Proofs.Time.HttpDate.Forms
import ResponseCache.Proofs.Time.HttpDate.RoundTrip
import ResponseCache.Proofs.Evaluation.Lines
import ResponseCache.Proofs.Traffic.Lookups
import ResponseCache.Proofs.Config.RoundTrip
import ResponseCache.Proofs.Decimal.Rounding
import ResponseCache.Proofs.Json.Text
import ResponseCache.Proofs.Decimal.Shortest
