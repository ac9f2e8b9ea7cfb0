import ProxyAuth.ExpiringSet.Sweeper
import ProxyAuth.Main
import ProxyAuth.Proofs.Client.Answer
import ProxyAuth.Proofs.Digest
import ProxyAuth.Proofs.Verification
import ProxyAuth.Transcript
import ProxyAuth.Proofs.Client.Agreement
import ProxyAuth.Proofs.Gate.Answer
import ProxyAuth.Proofs.Gate.AccountPrivacy
import ProxyAuth.Proofs.Address.RoundTrip
import ProxyAuth.Proofs.Gate.Run
import ProxyAuth.Proofs.Gate.Recall
import ProxyAuth.Proofs.Gate.History
import ProxyAuth.Proofs.Feed
import ProxyAuth.Proofs.Gate.Effects
import ProxyAuth.Proofs.Session.Exchange
import ProxyAuth.Proofs.Accounts
import ProxyAuth.Proofs.Gate.SecretPrivacy
import ProxyAuth.Proofs.Nonce
import ProxyAuth.Proofs.Verification.Binding
import ProxyAuth.Proofs.HeadLines
import ProxyAuth.Proofs.Utf8
import ProxyAuth.Proofs.RequestHead
import ProxyAuth.Proofs.Header.Printed
import ProxyAuth.Proofs.Page
import ProxyAuth.Proofs.Challenge
import ProxyAuth.Proofs.Session.Handshake
import ProxyAuth.Proofs.Session.HeadLimit
import ProxyAuth.Proofs.Gate.Deadline
import ProxyAuth.Proofs.Gate.Frame
import ProxyAuth.Proofs.ExpiringSet.History
import ProxyAuth.Proofs.Address.Canonical
import ProxyAuth.Proofs.Subnet
import ProxyAuth.Proofs.Allowlist
import ProxyAuth.Proofs.Gate.ClientIdentity
import ProxyAuth.Proofs.Gate.WrittenHead
import ProxyAuth.Proofs.Header.Spelling
import ProxyAuth.Proofs.Allowlist.RoundTrip
import ProxyAuth.Proofs.Nonce.AtIssue
import ProxyAuth.Proofs.Account.Grammar
import ProxyAuth.Proofs.Accounts.Loading
import ProxyAuth.Proofs.Policy
import ProxyAuth.Proofs.Challenge.Page
import ProxyAuth.Proofs.Challenge.Offer
import ProxyAuth.Proofs.RequestHead.Grammar
import ProxyAuth.Proofs.Header.Calls
import ProxyAuth.Proofs.Client.Run
import ProxyAuth.Proofs.ExpiringSet.Sweeping
import ProxyAuth.Proofs.Transcript
